import Pqsnet.Checked.Reservations
import Pqsnet.Session.Handshakes
import Pqsnet.Transport.InitializeMessage

/-! The socket ids that handshakes reserve: each is kept by one handshake until its session is set up or
the handshake has failed. -/

namespace Pqsnet.Session

open Checked Outcome Transport

variable {C : CryptoAndMem} {ε : Type}

/-- The socket id that is handed over for a session. -/
def Event.handed : Event → Option ℕ
  | handshakeComplete id => some id
  | _ => none

@[simp] lemma HandshakeEntry.event_handed (no : ℕ) (entry : HandshakeEntry C) : (entry.event no).handed = none := by
  cases entry <;> rfl

namespace Context

variable {ctx ctx' : Context C} {env : Env C} {packet message : Bytes} {no id : ℕ} {P : Bytes → Prop}

/-- The reservations in the tables. -/
def ledger (ctx : Context C) : Checked.Ledger ℕ ℕ where
  reserved := {id | ctx.socketTable id = some none}
  holder no := (ctx.handshakeTable no).bind HandshakeEntry.reserved
  handed := ctx.events.filterMap Event.handed

lemma holder_eq_some : ctx.ledger.holder no = some id ↔ ∃ entry, ctx.handshakeTable no = some entry ∧ entry.reserved = some id :=
  Option.bind_eq_some_iff

lemma holder_of_none (h : ctx.handshakeTable no = none) : ctx.ledger.holder no = none := by
  simp [ledger, h]

lemma holder_of_some {entry : HandshakeEntry C} (h : ctx.handshakeTable no = some entry) :
    ctx.ledger.holder no = entry.reserved := by
  simp [ledger, h]

lemma AwaitsInit.holder (h : ctx.AwaitsInit P no) : ctx.ledger.holder no = none := by
  rcases h with ⟨d, hd⟩ | ⟨-, hn⟩
  · exact holder_of_some hd
  · exact holder_of_none hn

section Ledger

lemma setEntry_ledger (ctx : Context C) (no : ℕ) (entry : HandshakeEntry C) : (ctx.setEntry no entry).ledger =
    ⟨ctx.ledger.reserved, Function.update ctx.ledger.holder no entry.reserved, ctx.ledger.handed⟩ := by
  simp only [ledger, setEntry, Checked.Ledger.mk.injEq, true_and, and_true]
  funext k
  simp only [Function.update_apply]
  split
  · rfl
  · rfl

lemma setEntry_ledger_self {entry : HandshakeEntry C} (h : ctx.ledger.holder no = entry.reserved) :
    (ctx.setEntry no entry).ledger = ctx.ledger := by
  rw [setEntry_ledger, ← h, Function.update_eq_self]

lemma reserve_ledger (ctx : Context C) (id : ℕ) : (ctx.setSocket id (some none)).ledger =
    ⟨insert id ctx.ledger.reserved, ctx.ledger.holder, ctx.ledger.handed⟩ := by
  simp only [ledger, setSocket, Checked.Ledger.mk.injEq, and_true]
  ext k
  by_cases hk : k = id
  · simp [hk]
  · simp [hk]

lemma remove_ledger (ctx : Context C) (id : ℕ) : (ctx.setSocket id none).ledger =
    ⟨ctx.ledger.reserved \ {id}, ctx.ledger.holder, ctx.ledger.handed⟩ := by
  simp only [ledger, setSocket, Checked.Ledger.mk.injEq, and_true]
  ext k
  by_cases hk : k = id
  · simp [hk]
  · simp [hk]

lemma log_ledger {e : Event} (he : e.handed = none) : (ctx.log e).ledger = ctx.ledger := by
  simp [ledger, log, he]

lemma handshakeComplete_ledger (ctx : Context C) (id : ℕ) : (ctx.handshakeComplete id).ledger =
    ⟨ctx.ledger.reserved, ctx.ledger.holder, ctx.ledger.handed ++ [id]⟩ := by
  simp [ledger, handshakeComplete, log, Event.handed]

lemma consume_ledger {e : Event} (he : e.handed = none) : (ctx.consume no e).ledger =
    ⟨ctx.ledger.reserved, Function.update ctx.ledger.holder no none, ctx.ledger.handed⟩ := by
  rw [consume, log_ledger he, setEntry_ledger]
  rfl

lemma AwaitsInit.consume_ledger (h : ctx.AwaitsInit P no) : (ctx.consume no (.processInitialize no)).ledger = ctx.ledger := by
  rw [Context.consume_ledger rfl, ← h.holder, Function.update_eq_self]

/-- Every call keeps the books: it reserves an id that was free for a key that had none, hands over the
id of a key, or removes it. -/
lemma Effect.ledger (h : Effect P ctx ctx') : Relation.ReflTransGen Checked.Ledger.Step ctx.ledger ctx'.ledger := by
  have hfree : ∀ {id : ℕ}, ctx.socketTable id = none → id ∉ ctx.ledger.reserved := by
    intro id hid hres
    change ctx.socketTable id = some none at hres
    rw [hid] at hres
    cases hres
  cases h with
  | idle => exact .refl
  | deliver id plaintext => rw [log_ledger rfl]
  | opened _ hid hfresh =>
    rw [setEntry_ledger, reserve_ledger]
    exact .single (.reserve (hfree hid) (holder_of_none hfresh))
  | started _ _ h => rw [setEntry_ledger_self (holder_of_none h)]
  | @kept no entry pending o keep d h hw =>
    rw [setEntry_ledger_self]
    rw [HandshakeEntry.reserved_keep hw, holder_of_some h]
  | initFailed h => rw [h.consume_ledger]
  | @initComplete no id h hid =>
    -- the id is reserved for the handshake and handed over in one go
    rw [handshakeComplete_ledger, reserve_ledger, h.consume_ledger]
    refine .tail (.single (.reserve (hfree hid) h.holder)) ?_
    have hhand := Checked.Ledger.Step.hand (l := ⟨insert id ctx.ledger.reserved, Function.update ctx.ledger.holder no (some id), ctx.ledger.handed⟩)
      (Function.update_self no (some id) ctx.ledger.holder)
    rwa [Function.update_idem, ← h.holder, Function.update_eq_self] at hhand
  | initSent h hid hvacant =>
    rw [setEntry_ledger, reserve_ledger, h.consume_ledger]
    exact .single (.reserve (hfree hid) (holder_of_none hvacant))
  | complete h hid =>
    rw [handshakeComplete_ledger, consume_ledger (HandshakeEntry.event_handed ..)]
    exact .single (.hand (holder_eq_some.mpr ⟨_, h, hid⟩))
  | failed h hid =>
    rw [remove_ledger, consume_ledger (HandshakeEntry.event_handed ..)]
    exact .single (.release (holder_eq_some.mpr ⟨_, h, hid⟩))

lemma New.balanced (h : ctx.New) : ctx.ledger.Balanced where
  mem id := by simp [Context.ledger, h.table, h.events, h.sockets]
  unique id k k' hk := by simp [Context.ledger, h.table] at hk
  apart id k hk := by simp [Context.ledger, h.table] at hk
  nodup := by simp [Context.ledger, h.events]

lemma Served.balanced (h : Served P ctx) : ctx.ledger.Balanced :=
  h.invariant (fun _ hnew => hnew.balanced) fun _ _ hctx he => hctx.steps he.ledger

end Ledger

section Checks

end Checks

/-- How the processing of the message under a key ends, for the socket ids. -/
inductive Settles (ctx : Context C) (no : ℕ) (ctx' : Context C) : Prop
  | complete {id : ℕ} (held : ctx.ledger.holder no = some id) (hs : ctx'.socketTable = ctx.socketTable)
      (hd : ctx'.ledger.handed = ctx.ledger.handed ++ [id])
  | failed {id : ℕ} (held : ctx.ledger.holder no = some id) (hs : ctx'.socketTable = Function.update ctx.socketTable id none)
      (hd : ctx'.ledger.handed = ctx.ledger.handed)
  | initComplete {id : ℕ} (held : ctx.ledger.holder no = none) (free : ctx.socketTable id = none)
      (hs : ctx'.socketTable = Function.update ctx.socketTable id (some none))
      (hd : ctx'.ledger.handed = ctx.ledger.handed ++ [id])
  | initSent {id : ℕ} (held : ctx.ledger.holder no = none) (free : ctx.socketTable id = none)
      (hs : ctx'.socketTable = Function.update ctx.socketTable id (some none))
      (hh : ctx'.ledger.holder (no + handshakeNoSocketIdInc + handshakeNoSocketIdInc) = some id)
      (hd : ctx'.ledger.handed = ctx.ledger.handed)
  | initFailed (held : ctx.ledger.holder no = none) (hs : ctx'.socketTable = ctx.socketTable)
      (hd : ctx'.ledger.handed = ctx.ledger.handed)

end Context

end Pqsnet.Session
