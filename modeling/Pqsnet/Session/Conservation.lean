import Pqsnet.Session.World

/-! What becomes of completed documents over a whole run. -/

namespace Pqsnet.Session

open Checked Outcome SessionInner

variable {T ε : Type} {s s' : SessionInner T} {P : Permits} {h h' : Hand} {docNo : ℕ}

namespace SessionInner

lemma Move.lost (hm : Move P s h s' h') : s'.ledger.lost = s.ledger.lost ∨ P.lose ∧ ∃ d, s'.ledger.lost = s.ledger.lost ++ [d] := by
  cases hm with
  | other same => exact .inl (congrArg Ledger.lost same.ledger)
  | lose hP => exact .inr ⟨hP, _, rfl⟩
  | lend | post | postReply | count | closeLocal => exact .inl (congrArg Ledger.lost (setChannel_ledger _))
  | _ => exact .inl rfl

lemma Moves.lost_grows (hm : Moves P s h s' h') : s.ledger.lost <+: s'.ledger.lost := by
  induction hm with
  | refl => exact List.prefix_refl _
  | tail _ hmove ih =>
    rcases hmove.lost with heq | ⟨-, d, heq⟩
    · rwa [heq]
    · rw [heq]
      exact ih.trans (List.prefix_append _ _)

lemma Moves.lost_eq (hm : Moves P s h s' h') (hP : ¬ P.lose) : s'.ledger.lost = s.ledger.lost := by
  induction hm with
  | refl => rfl
  | tail _ hmove ih =>
    rcases hmove.lost with heq | ⟨hlose, -⟩
    · exact heq.trans ih
    · exact absurd hlose hP

/-- Every document that was completed is the application's, or was released because its parent closed, or is in exactly
one place: among the ready documents of a channel, the orphans of a slot, or in a reply buffer. -/
structure Owned (s : SessionInner T) : Prop where
  once : s.ledger.completed.Nodup
  owned : (s.ledger.completed : Multiset ℕ) = s.ledger.taken + s.ledger.released + s.held.map Undelivered.docNo

lemma Inv.owned_iff (hinv : Inv s ⟨0, none⟩) : s.Owned ↔ s.ledger.lost = [] := by
  have hkept := hinv.kept.conserve
  simp only [books, add_zero] at hkept
  rw [add_right_comm _ (s.ledger.lost : Multiset ℕ)] at hkept
  constructor
  · rintro ⟨-, howned⟩
    rw [howned, left_eq_add] at hkept
    exact (Multiset.coe_eq_zero _).mp hkept
  · intro hlost
    refine ⟨hinv.kept.nodup, ?_⟩
    rw [hkept, hlost]
    exact add_zero _

lemma Moves.balanced (hm : Moves P s h s' h') (hinv : Inv s h) (hlend : ¬ P.lend) (hreject : ¬ P.reject)
    (hb : (s.books h).Balanced) : (s'.books h').Balanced := by
  induction hm with
  | refl => exact hb
  | tail hmoves hmove ih =>
    have hinv' := hmoves.inv hinv
    exact (hmove.books hinv'.toSlotInv fun j e he hact => hinv'.new_of_active he hact).balanced hlend hreject (ih hinv hb)

/-- The window is used by exactly the documents that are being received or wait to be taken, and there is room for
them. -/
def WindowExact (s : SessionInner T) : Prop :=
  s.recvBytesTotal = s.receiving + (s.held.map Undelivered.docLen).sum ∧ s.recvBytesTotal ≤ s.recvBytesMax

end SessionInner

section Closing

variable {c : Channel} {channel : OpenChannel}

lemma yields_closeIfInner_lost {f : OpenChannel → Outcome ε (Bool × OpenChannel)} (hinv : SlotInv s h)
    (hc : World.HoldsReply s c.docNo channel) (n : ℕ) (hf : f channel = .ok (true, { channel with refCount := n })) :
    Yields (fun r : Except ChannelError Unit × SessionInner T => r.2.ledger.lost ≠ []) (c.closeIfInner f s) := by
  obtain ⟨hopen, len, reply, hreply⟩ := hc
  rw [Channel.closeIfInner, channelSlot_eq hopen, ok_bind]
  dsimp only
  rw [if_pos rfl, hf, ok_bind]
  dsimp only
  rw [if_pos rfl, dropClosedChannel, bind_assoc]
  apply (yields_self _).bind
  intro s' _
  rw [ok_bind, lose, lostWith, hreply]
  exact List.append_ne_nil_of_right_ne_nil _ (List.cons_ne_nil _ _)

lemma yields_drop_lost (hinv : SlotInv s h) (hc : World.HoldsReply s c.docNo channel) (hn : channel.refCount = 1) :
    Yields (fun s' => s'.ledger.lost ≠ []) (c.drop s : Outcome ε _) := by
  rw [Channel.drop]
  apply (yields_closeIfInner_lost hinv hc 0 ?_).bind
  · exact fun r hr => hr
  · rw [hn, sub_ok le_rfl]
    rfl

end Closing

namespace World

variable [LT T] [DecidableLT T] {w w' w₀ : World T} {a : Action T} {as : List (Action T)}

lemma yields_step_lost (hw : w.Ok) (ha : w.ClosesReply a) : Yields (fun w' => w'.session.ledger.lost ≠ []) (w.step a) := by
  have hinv := hw.session.toSlotInv
  cases a with
  | drop c =>
    obtain ⟨channel, hc, hn⟩ := ha
    exact yields_holding fun _ => (yields_drop_lost hinv hc hn).bind fun s hs => hs
  | dropReply fut =>
    obtain ⟨reply, channel, hstate, hc, hn⟩ := ha
    refine yields_holding fun _ => ?_
    rw [SendReplyFuture.drop, hstate]
    exact (yields_drop_lost hinv hc hn).bind fun s hs => hs
  | closeIf c b =>
    obtain ⟨rfl, hbasic, channel, hc⟩ := ha
    refine yields_holding fun _ => ?_
    rw [Channel.closeIf, hbasic]
    exact (yields_closeIfInner_lost hinv hc channel.refCount rfl).bind fun r hr => hr
  | _ => exact absurd ha id

lemma Ok.lost_step (hw : w.Ok) (ha : w.step a = .ok w') :
    w'.session.ledger.lost = [] ↔ w.session.ledger.lost = [] ∧ ¬ w.ClosesReply a := by
  have hm := hw.moves ha
  constructor
  · intro hlost
    have hgrows := hm.lost_grows
    rw [hlost, List.prefix_nil] at hgrows
    exact ⟨hgrows, fun hcl => (yields_step_lost hw hcl).ok ha hlost⟩
  · rintro ⟨hlost, hkeep⟩
    rw [hm.lost_eq hkeep, hlost]

lemma Ok.lost_run (hw : w.Ok) (hrun : run as w = .ok w') :
    w'.session.ledger.lost = [] ↔ w.session.ledger.lost = [] ∧ w.Always (fun w a => ¬ w.ClosesReply a) as := by
  induction as generalizing w with
  | nil =>
    cases hrun
    exact (and_iff_left trivial).symm
  | cons a as ih =>
    obtain ⟨w₁, ha, hrun⟩ := bind_eq_ok.mp hrun
    rw [ih (hw.step ha) hrun, hw.lost_step ha, and_assoc]
    refine and_congr_right fun _ => and_congr_right fun _ => ⟨fun hall w₂ ha₂ => ?_, fun hall => hall w₁ ha⟩
    cases ha.symm.trans ha₂
    exact hall

/-- After any run, every completed document is owned if and only if no call of the run closed a channel that held
a reply: of all the places, only that one forgets its document. -/
theorem owned_iff_keeps_replies (hinit : w₀.Initial) (hrun : run as w₀ = .ok w) :
    w.session.Owned ↔ w₀.Always (fun w a => ¬ w.ClosesReply a) as := by
  rw [(hinit.ok.after hrun).session.owned_iff, hinit.ok.lost_run hrun, hinit.ledger]
  exact and_iff_right rfl

/-- A peer that may send a hundred bytes, and a channel that is open from the start. -/
def oneChannel : World ℕ where
  session := { idle ⟨[], Nat.zero_le 2⟩ with
    recvBytesMax := 100
    sendBytesMax := 100
    recvTable := ⟨0, .finAck, some ⟨1, [], .none⟩, [], none, false⟩ :: List.replicate 3 ⟨0, .finAck, none, [], none, false⟩
    sendTable := List.replicate 4 ⟨0, false, none, none⟩ }
  handles := [⟨0, false, false⟩]
  futures := []

lemma oneChannel_initial : oneChannel.Initial where
  recvPos := by decide
  sendPos := by decide
  parity := rfl
  total := rfl
  ledger := rfl
  recv := by
    intro e he
    rcases List.mem_cons.mp he with rfl | he
    · exact ⟨Bool.false_ne_true, rfl, rfl, fun c hc => by cases hc; exact ⟨rfl, rfl⟩⟩
    · rw [List.eq_of_mem_replicate he]
      exact ⟨Bool.false_ne_true, rfl, rfl, fun c hc => by cases hc⟩
  send := by
    intro e he c hc
    rw [List.eq_of_mem_replicate he] at hc
    cases hc
  handles := by
    intro c hc
    rw [List.mem_singleton.mp hc]
    exact .inr ⟨_, rfl, le_rfl, fun _ => Bool.false_ne_true⟩
  futures := rfl

/-- A document is sent with a buffer for the reply, and the reply arrives in two segments. -/
def replyArrives : List (Action ℕ) :=
  [.sendWithReplyBuffer ⟨0, false, false⟩ [1] ⟨0, 2⟩, .pollReply ⟨⟨0, false, false⟩, ⟨0, 2⟩, .sending [1]⟩,
    .recvSeg [0x1D, 2, 2, 1, 1, 7] 0x1D 1, .recvSeg [0x01, 2, 1, 1, 8] 0x01 1]

theorem owned_replyArrives : ∃ w, run replyArrives oneChannel = .ok w ∧ w.session.ledger = ⟨[2], [], [], []⟩ ∧
    w.session.Owned := by
  obtain ⟨w, hrun, hledger⟩ := exists_of_map (f := fun w => w.session.ledger) (x := run replyArrives oneChannel)
    (b := ⟨[2], [], [], []⟩) (by decide +kernel)
  refine ⟨w, hrun, hledger, (owned_iff_keeps_replies oneChannel_initial hrun).mpr ?_⟩
  exact ⟨id, fun _ _ => ⟨id, fun _ _ => ⟨id, fun _ _ => ⟨id, fun _ _ => trivial⟩⟩⟩⟩

/-- The future of the send is dropped before the reply is taken out of its buffer. -/
theorem not_owned_dropReply : ∃ w, run (replyArrives ++ [.dropReply ⟨⟨0, false, false⟩, ⟨0, 2⟩, .sent ⟨1, false, false⟩⟩])
    oneChannel = .ok w ∧ w.session.held = 0 ∧ w.session.ledger = ⟨[2], [], [], [2]⟩ ∧ ¬ w.session.Owned := by
  obtain ⟨w, hrun, hledger⟩ := exists_of_map (f := fun w => (w.session.held.card, w.session.ledger))
    (x := run (replyArrives ++ [.dropReply ⟨⟨0, false, false⟩, ⟨0, 2⟩, .sent ⟨1, false, false⟩⟩]) oneChannel)
    (b := (0, ⟨[2], [], [], [2]⟩)) (by decide +kernel)
  rw [Prod.mk.injEq, Multiset.card_eq_zero] at hledger
  refine ⟨w, hrun, hledger.1, hledger.2, fun ⟨_, howned⟩ => ?_⟩
  rw [hledger.1, hledger.2] at howned
  exact absurd howned (by decide)

/-- In a run in which no segment is written into a reply buffer, every document gives back what it used of the window. -/
theorem windowExact_of_no_reply_buffer (hinit : w₀.Initial) (hrun : run as w₀ = .ok w)
    (hall : w₀.Always (fun w a => ¬ w.UsesReplyBuffer a) as) : w.session.WindowExact := by
  have hbooks : (w.session.books ⟨0, none⟩).Balanced := by
    refine hall.induction hinit.ok (I := fun w => (w.session.books ⟨0, none⟩).Balanced) ?_ hrun
      fun w a w' hw hb hno ha => (hw.moves ha).balanced hw.session hno id hb
    refine ⟨fun u hu => ?_, ?_, ?_, ?_⟩
    · rw [books, hinit.held] at hu
      exact absurd hu (Multiset.notMem_zero u)
    · rw [books, hinit.held, hinit.receiving, hinit.total]
      rfl
    · rw [books, hinit.total]
      exact Nat.two_pow_pos 64
    · rw [books, hinit.total]
      exact Nat.zero_le _
  have htotal := hbooks.total
  simp only [books, Hand.claimedLen, Option.map_none, Option.getD_none, add_zero] at htotal
  exact ⟨htotal, hbooks.max⟩

/-- A document arrives in two segments and is taken. -/
def docTaken : List (Action ℕ) :=
  [.recvSeg [0x15, 2, 2, 0, 1, 7] 0x15 1, .recvSeg [0x01, 2, 1, 1, 8] 0x01 1, .tryRecv ⟨0, false, false⟩]

theorem windowExact_docTaken : ∃ w, run docTaken oneChannel = .ok w ∧ w.session.ledger = ⟨[2], [2], [], []⟩ ∧
    w.session.WindowExact := by
  obtain ⟨w, hrun, hledger⟩ := exists_of_map (f := fun w => w.session.ledger) (x := run docTaken oneChannel)
    (b := ⟨[2], [2], [], []⟩) (by decide +kernel)
  refine ⟨w, hrun, hledger, windowExact_of_no_reply_buffer oneChannel_initial hrun ?_⟩
  refine ⟨fun ⟨_, _, _, hu⟩ => not_usesReplyBuffer (by decide) hu, fun w₁ h₁ => ⟨fun ⟨_, _, _, hu⟩ => ?_, fun _ _ => ⟨id, fun _ _ => trivial⟩⟩⟩
  have hheap : (oneChannel.step (.recvSeg [0x15, 2, 2, 0, 1, 7] 0x15 1)).toOption.map (fun w => w.session.heapOnly) = some true := by
    decide +kernel
  rw [h₁] at hheap
  exact not_usesReplyBuffer (Option.some.inj hheap) hu

/-- A reply is taken out of its buffer, and the two bytes it used of the window are not given back. -/
theorem not_windowExact_pollReply : ∃ w, run (replyArrives ++ [.pollReply ⟨⟨0, false, false⟩, ⟨0, 2⟩, .sent ⟨1, false, false⟩⟩])
    oneChannel = .ok w ∧ w.session.ledger = ⟨[2], [2], [], []⟩ ∧ w.session.recvBytesTotal = 2 ∧ ¬ w.session.WindowExact := by
  obtain ⟨w, hrun, heval⟩ := exists_of_map
    (f := fun w => (w.session.ledger, w.session.recvBytesTotal, w.session.receiving, w.session.held.card))
    (x := run (replyArrives ++ [.pollReply ⟨⟨0, false, false⟩, ⟨0, 2⟩, .sent ⟨1, false, false⟩⟩]) oneChannel)
    (b := (⟨[2], [2], [], []⟩, 2, 0, 0)) (by decide +kernel)
  simp only [Prod.mk.injEq, Multiset.card_eq_zero] at heval
  obtain ⟨hledger, htotal, hreceiving, hheld⟩ := heval
  refine ⟨w, hrun, hledger, htotal, fun ⟨hexact, _⟩ => ?_⟩
  rw [htotal, hreceiving, hheld] at hexact
  exact absurd hexact (by decide)

end World

end Pqsnet.Session
