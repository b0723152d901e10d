import Pqsnet.Session.Conservation

/-! What sends that fail leave behind. -/

namespace Pqsnet.Session.Channel

open Checked Outcome SessionInner

variable {T ε : Type} {s s' s₁ : SessionInner T} {c c' : Channel} {doc : Bytes} {replyBuffer : SpecialReplyState}

/-- A document that is below a limit in force. -/
def Sendable (s : SessionInner T) (doc : Bytes) : Prop := 0 < s.sendBytesMax ∧ doc.length < s.sendBytesMax

/-- The state that a send has counted its document in, before it has a slot for it. -/
def charged (s : SessionInner T) (doc : Bytes) : SessionInner T :=
  { s with sendTotal := s.sendTotal + 1, sendBytesTotal := s.sendBytesTotal + doc.length }

lemma fetchSub_add_one {n : ℕ} (h : n + 1 < 2 ^ 64) : fetchSub (n + 1) 1 = n := by
  unfold fetchSub
  omega

lemma trySendAny_cases {r : Except (TrySendError × Bytes) Channel} (h : (c.trySendAny doc replyBuffer s : Outcome ε _) = .ok (r, s')) :
    (r = .error (.full, doc) ∧ s' = s ∧ (s.sendTable.length ≤ s.sendTotal + 1 ∨ Sendable s doc)) ∨
      (∃ e, r = .error (e, doc) ∧ e ≠ .full ∧ s' = { s with sendTotal := s.sendTotal + 1 } ∧
        s.sendTotal + 1 < s.sendTable.length ∧ ¬ Sendable s doc) ∨
      ∃ c', r = .ok c' ∧ s.sendTotal + 1 < s.sendTable.length ∧ Sendable s doc ∧ s.sendBytesTotal + doc.length < s.sendBytesMax ∧
        s.sendBytesTotal + doc.length < 2 ^ 64 ∧
        (c.sendSlot doc replyBuffer (2 * s.sendTable.length) (charged s doc) : Outcome ε _) = .ok (c', s') := by
  obtain ⟨total, htotal, h⟩ := bind_eq_ok.mp h
  obtain ⟨hsmall, rfl⟩ := add_eq_ok.mp htotal
  dsimp only at h
  split at h
  · rename_i hfull
    rw [ok_inj, Prod.mk.injEq] at h
    exact .inl ⟨h.1.symm, h.2.symm, .inl hfull⟩
  rename_i hroom
  split at h
  · rename_i hmax
    rw [ok_inj, Prod.mk.injEq] at h
    exact .inr (.inl ⟨.abandoned, h.1.symm, by decide, h.2.symm, not_le.mp hroom, fun hs => by rw [Sendable, hmax] at hs; omega⟩)
  rename_i hmax
  split at h
  · rename_i hlarge
    rw [ok_inj, Prod.mk.injEq] at h
    exact .inr (.inl ⟨.tooLarge, h.1.symm, by decide, h.2.symm, not_le.mp hroom, fun hs => absurd hs.2 (not_lt.mpr hlarge)⟩)
  rename_i hlarge
  have hs : Sendable s doc := ⟨Nat.pos_of_ne_zero hmax, not_le.mp hlarge⟩
  obtain ⟨bytes, hbytes, h⟩ := bind_eq_ok.mp h
  obtain ⟨hsmall', rfl⟩ := add_eq_ok.mp hbytes
  split at h
  · rw [ok_inj, Prod.mk.injEq, fetchSub_add_one hsmall] at h
    exact .inl ⟨h.1.symm, h.2.symm, .inr hs⟩
  · rename_i hfits
    obtain ⟨⟨c', s₁⟩, hslot, h⟩ := bind_eq_ok.mp h
    rw [ok_inj, Prod.mk.injEq] at h
    obtain ⟨rfl, rfl⟩ := h
    exact .inr (.inr ⟨c', rfl, not_le.mp hroom, hs, not_le.mp hfits, hsmall', hslot⟩)

lemma trySendAny_ok (hroom : s.sendTotal + 1 < s.sendTable.length) (hsmall : s.sendTotal + 1 < 2 ^ 64) (hs : Sendable s doc)
    (hfits : s.sendBytesTotal + doc.length < s.sendBytesMax) (hsmall' : s.sendBytesTotal + doc.length < 2 ^ 64)
    (hslot : (c.sendSlot doc replyBuffer (2 * s.sendTable.length) (charged s doc) : Outcome ε _) = .ok (c', s')) :
    (c.trySendAny doc replyBuffer s : Outcome ε _) = .ok (.ok c', s') := by
  rw [trySendAny, add_ok hsmall, ok_bind]
  dsimp only
  rw [if_neg (not_le.mpr hroom), if_neg hs.1.ne', if_neg (not_le.mpr hs.2), add_ok hsmall', ok_bind, if_neg (not_le.mpr hfits)]
  exact bind_eq_ok.mpr ⟨(c', s'), hslot, rfl⟩

lemma sendSlot_total {fuel n : ℕ} (h : (c.sendSlot doc replyBuffer fuel s : Outcome ε _) = .ok (c', s')) :
    (c.sendSlot doc replyBuffer fuel { s with sendTotal := n } : Outcome ε _) = .ok (c', { s' with sendTotal := n }) := by
  induction fuel generalizing s with
  | zero => exact absurd h (panic_ne_ok _ _)
  | succ fuel ih =>
    obtain ⟨sendIdx, hidx, h⟩ := bind_eq_ok.mp h
    obtain ⟨entry, hentry, h⟩ := bind_eq_ok.mp h
    refine bind_eq_ok.mpr ⟨sendIdx, hidx, bind_eq_ok.mpr ⟨entry, hentry, ?_⟩⟩
    split at h
    · rename_i htaken
      rw [if_pos htaken]
      exact ih h
    · rename_i hfree
      rw [if_neg hfree]
      rw [ok_inj, Prod.mk.injEq] at h
      obtain ⟨rfl, rfl⟩ := h
      rfl

def Accepts (s : SessionInner T) (c : Channel) (doc : Bytes) (replyBuffer : SpecialReplyState) : Prop :=
  ∃ c' s', (c.trySendAny doc replyBuffer s : Outcome Empty _) = .ok (.ok c', s')

/-- A send that failed: its document, the error and the document that came back with it. -/
structure FailedSend where
  doc : Bytes
  error : TrySendError
  returned : Bytes

/-- Sends that failed one after another. -/
inductive FailedSends : SessionInner T → List FailedSend → SessionInner T → Prop
  | nil {s : SessionInner T} : FailedSends s [] s
  | cons {s s₁ s' : SessionInner T} {c : Channel} {doc returned : Bytes} {replyBuffer : SpecialReplyState} {error : TrySendError}
    {fails : List FailedSend} (h : (c.trySendAny doc replyBuffer s : Outcome Empty _) = .ok (.error (error, returned), s₁))
    (rest : FailedSends s₁ fails s') : FailedSends s (⟨doc, error, returned⟩ :: fails) s'

/-- How many of them were not undone. -/
def leaked (fails : List FailedSend) : ℕ := fails.countP fun f => f.error ≠ .full

/-- The limits, the numbers and the table are as before, the documents came back, and what was accepted before still is. -/
structure NoTrace (s : SessionInner T) (fails : List FailedSend) (s' : SessionInner T) : Prop where
  total : s'.sendTotal = s.sendTotal
  bytes : s'.sendBytesTotal = s.sendBytesTotal
  docNo : s'.sendDocNo = s.sendDocNo
  table : s'.sendTable = s.sendTable
  returned : ∀ f ∈ fails, f.returned = f.doc
  accepts : ∀ c doc replyBuffer, Accepts s c doc replyBuffer → Accepts s' c doc replyBuffer

lemma FailedSends.eq {fails : List FailedSend} (h : FailedSends s fails s') :
    s' = { s with sendTotal := s.sendTotal + leaked fails } ∧ ∀ f ∈ fails, f.returned = f.doc := by
  induction h with
  | nil => exact ⟨rfl, fun f hf => absurd hf List.not_mem_nil⟩
  | cons h rest ih =>
    obtain ⟨ih, hdocs⟩ := ih
    rw [List.forall_mem_cons, leaked, List.countP_cons]
    obtain ⟨hr, rfl, -⟩ | ⟨e, hr, hne, rfl, -, -⟩ | ⟨c', hr, -⟩ := trySendAny_cases h
    · obtain ⟨rfl, rfl⟩ := Prod.mk.inj (Except.error.inj hr)
      exact ⟨by rw [ih]; rfl, rfl, hdocs⟩
    · obtain ⟨rfl, rfl⟩ := Prod.mk.inj (Except.error.inj hr)
      refine ⟨?_, rfl, hdocs⟩
      rw [ih, if_pos (decide_eq_true hne)]
      dsimp only
      rw [Nat.add_assoc, Nat.add_comm 1]
      rfl
    · cases hr

lemma accepts_iff {n : ℕ} (hlen : s.sendTable.length ≤ 2 ^ 64) (h : Accepts s c doc replyBuffer) :
    Accepts { s with sendTotal := s.sendTotal + n } c doc replyBuffer ↔ s.sendTotal + n + 1 < s.sendTable.length := by
  obtain ⟨c', s', h⟩ := h
  obtain ⟨hr, -⟩ | ⟨e, hr, -⟩ | ⟨c₁, -, -, hs, hfits, hsmall, hslot⟩ := trySendAny_cases h
  · cases hr
  · cases hr
  constructor
  · rintro ⟨c₂, s₂, h₂⟩
    obtain ⟨hr, -⟩ | ⟨e, hr, -⟩ | ⟨c₂, -, hroom, -⟩ := trySendAny_cases h₂
    · cases hr
    · cases hr
    · exact hroom
  · intro hroom
    have hroom' : s.sendTotal + n + 1 < 2 ^ 64 := by omega
    exact ⟨c₁, _, trySendAny_ok hroom hroom' hs hfits hsmall (sendSlot_total hslot)⟩

lemma poll_error {fut fut' : SendFuture} {polled : Option (Except (SendError × Bytes) Channel)} (hdoc : fut.doc = some doc)
    (h : (fut.poll s : Outcome ε _) = .ok (polled, fut', s')) :
    (polled = none → s' = s ∧ fut'.doc = some doc) ∧
      ∀ e returned, polled = some (.error (e, returned)) → returned = doc ∧ s' = { s with sendTotal := s.sendTotal + 1 } := by
  rw [SendFuture.poll, hdoc, unwrap_some, ok_bind] at h
  obtain ⟨⟨r, s₁⟩, hsend, hres⟩ := bind_eq_ok.mp h
  clear h
  obtain ⟨rfl, rfl, -⟩ | ⟨e, rfl, hne, rfl, -, -⟩ | ⟨c', rfl, -⟩ := trySendAny_cases hsend
  · cases hres
    exact ⟨fun _ => ⟨rfl, rfl⟩, fun e returned he => by cases he⟩
  · cases e with
    | full => exact absurd rfl hne
    | _ =>
      cases hres
      refine ⟨fun hn => (by cases hn), fun e returned he => ?_⟩
      cases he
      exact ⟨rfl, rfl⟩
  · cases hres
    exact ⟨fun hn => (by cases hn), fun e returned he => by cases he⟩

/-- Failed sends leave no trace exactly if each of them found the limits exhausted. The others are counted for good, and
only as many of them fit as there are slots left. -/
theorem failed_sends_iff {fails : List FailedSend} (hlen : s.sendTable.length ≤ 2 ^ 64) (h : FailedSends s fails s') :
    (NoTrace s fails s' ↔ ∀ f ∈ fails, f.error = .full) ∧
      (∀ c doc replyBuffer, Accepts s c doc replyBuffer →
        (Accepts s' c doc replyBuffer ↔ s.sendTotal + leaked fails + 1 < s.sendTable.length)) ∧
      (∀ (c : Channel) doc replyBuffer error returned s₁,
        (c.trySendAny doc replyBuffer s : Outcome Empty _) = .ok (.error (error, returned), s₁) →
          (error = .full ↔ s.sendTable.length ≤ s.sendTotal + 1 ∨ Sendable s doc)) ∧
      ∀ (fut : SendFuture) doc fut' s₁, fut.doc = some doc → (fut.poll s : Outcome Empty _) = .ok (none, fut', s₁) →
        s₁ = s ∧ fut'.doc = some doc := by
  obtain ⟨rfl, hdocs⟩ := h.eq
  have hzero : (∀ f ∈ fails, f.error = .full) ↔ leaked fails = 0 := by
    rw [leaked, List.countP_eq_zero]
    simp
  refine ⟨?_, fun c doc replyBuffer hacc => accepts_iff hlen hacc, fun c doc replyBuffer error returned s₁ h₁ => ?_,
    fun fut doc fut' s₁ hdoc hpoll => (poll_error hdoc hpoll).1 rfl⟩
  · rw [hzero]
    constructor
    · intro hno
      have := hno.total
      dsimp only at this
      omega
    · intro h0
      rw [h0]
      exact ⟨rfl, rfl, rfl, rfl, hdocs, fun c doc replyBuffer hacc => hacc⟩
  · obtain ⟨hr, -, hcond⟩ | ⟨e, hr, hne, -, hroom, hnot⟩ | ⟨c', hr, -⟩ := trySendAny_cases h₁
    · obtain ⟨rfl, -⟩ := Prod.mk.inj (Except.error.inj hr)
      exact ⟨fun _ => hcond, fun _ => rfl⟩
    · obtain ⟨rfl, -⟩ := Prod.mk.inj (Except.error.inj hr)
      exact ⟨fun hfull => absurd hfull hne, fun hcond => hcond.elim (fun hle => absurd hroom (not_lt.mpr hle)) fun hs => absurd hs hnot⟩
    · cases hr

/-- A document that is too large for the session, which has room for 100 bytes in three documents. -/
def tooLarge : Bytes := List.replicate 100 0

/-- The state after `n` such documents were refused. -/
def refused (n : ℕ) : SessionInner ℕ := { World.oneChannel.session with sendTotal := n }

lemma refused_succ {n : ℕ} (hn : n < 3) : (trySend ⟨0, false, false⟩ tooLarge (refused n) : Outcome Empty _) =
    .ok (.error (.tooLarge, tooLarge), refused (n + 1)) := by
  match n, hn with
  | 0, _ => rfl
  | 1, _ => rfl
  | 2, _ => rfl

/-- One of them is refused. Two more would be, before the session accepts nothing any more. -/
theorem failed_sends_once : Accepts (refused 1) ⟨0, false, false⟩ [5] .none := by
  have hlen : (refused 0).sendTable.length ≤ 2 ^ 64 := by decide
  have hacc : Accepts (refused 0) ⟨0, false, false⟩ [5] .none := ⟨⟨1, false, false⟩, _, rfl⟩
  exact ((failed_sends_iff hlen (.cons (refused_succ (by decide)) .nil)).2.1 _ _ _ hacc).mpr (by decide)

/-- Three of them use up the session: a document that was fine before is refused as if the session was full. -/
theorem too_large_leaks :
    FailedSends (refused 0) (List.replicate 3 ⟨tooLarge, .tooLarge, tooLarge⟩) (refused 3) ∧
      Accepts (refused 0) ⟨0, false, false⟩ [5] .none ∧
      (trySend ⟨0, false, false⟩ [5] (refused 3) : Outcome Empty _) = .ok (.error (.full, [5]), refused 3) := by
  refine ⟨?_, ⟨⟨1, false, false⟩, _, rfl⟩, rfl⟩
  exact .cons (refused_succ (by decide)) (.cons (refused_succ (by decide)) (.cons (refused_succ (by decide)) .nil))

end Pqsnet.Session.Channel
