import Pqsnet.Session.Receiving

/-! What the application does with its channels is made of small steps, too. -/

namespace Pqsnet.Session

open Checked Outcome SessionInner

variable {T ε : Type} {s s' : SessionInner T} {P : Permits} {h h' : Hand} {docNo : ℕ} {c : Channel}

namespace SessionInner

lemma Moves.settled (hm : Moves P s h s' h') (hinv : Inv s h) (hd : s.Settled docNo) : s'.Settled docNo := by
  induction hm with
  | refl => exact hd
  | tail hmoves hmove ih => exact hmove.stepped.settled (hmoves.inv hinv).toSlotInv (ih hinv)

lemma Inv.settled_of_held (hinv : Inv s h) {channel : OpenChannel} {u : Undelivered} (hc : s.channelOf docNo = some channel)
    (hu : u ∈ channel.held) : s.Settled u.docNo := by
  have hheld := held_setChannel hc none
  rw [channelHeld, add_zero] at hheld
  refine (hinv.settled _ (hinv.kept.mem_completed (u := u) ?_)).2
  rw [books, ← hheld]
  exact Multiset.mem_add.mpr (.inl (Multiset.mem_add.mpr (.inr hu)))

/-- A call that comes back, if it does, after some small steps. -/
abbrev Yields {α : Type} (Q : α → Prop) (x : Outcome ε α) : Prop := Ends (fun _ => True) (fun _ => True) Q x

lemma yields_self {α : Type} (x : Outcome ε α) : Yields (fun a => x = .ok a) x := by
  rcases x with (p | e) | a
  · trivial
  · trivial
  · rfl

lemma Same.moves (hsame : Same s s') : Moves P s h s' h := (Move.other hsame).single

lemma moves_schedule (variant : UInt8) (docNo : ℕ) : Moves P s h (s.scheduleSendControl variant docNo) h :=
  Same.moves ⟨rfl, rfl, rfl, rfl, rfl, .inl rfl, rfl⟩

end SessionInner

namespace Channel

lemma ends_takeReady (hinv : Inv s h) : Comes (fun r : Option (Option UnfinishedRecvDoc) × SessionInner T =>
    Moves P s h r.2 h ∧ ∀ d, r.1 = some (some d) → r.2.Settled d.docNo) (c.takeReady s : Outcome ε _) := by
  rw [takeReady]
  -- the last document is taken out, or nothing happens
  apply Ends.bind (Q := fun r : Option (Option UnfinishedRecvDoc) × SessionInner T =>
    (∃ (d : UnfinishedRecvDoc) (docs : List UnfinishedRecvDoc) (channel : OpenChannel), s.channelOf c.docNo = some channel ∧
      channel.readyDocs = docs ++ [d] ∧
      r = (some (some d), s.setChannel c.docNo (some { channel with readyDocs := docs }))) ∨
    r = (none, s) ∨ r = (some none, s))
  · refine ends_updateChannel hinv.toSlotInv (fun channel hc => ?_) (.inr (.inl rfl))
    cases hlast : channel.readyDocs.getLast? with
    | some d =>
      refine .inl ⟨d, channel.readyDocs.dropLast, channel, hc, ?_, rfl⟩
      exact (List.dropLast_append_getLast? d hlast).symm
    | none =>
      have hnil : channel.readyDocs.dropLast = channel.readyDocs := by
        rw [List.getLast?_eq_none_iff.mp hlast]
        rfl
      refine .inr (.inr ?_)
      dsimp only
      rw [hnil, setChannel_self hc]
  · rintro _ (⟨d, docs, channel, hc, hready, rfl⟩ | rfl | rfl)
    · have hsettled : s.Settled d.docNo := hinv.settled_of_held (u := .ready d) hc (by
        rw [OpenChannel.held, hready, readyHeld_append]
        exact Multiset.mem_add.mpr (.inl (Multiset.mem_add.mpr (.inr (Multiset.mem_singleton_self _)))))
      have hmoves : Moves P s h _ h := (Move.deliver hc hready).single.trans (moves_schedule variantControlFin d.docNo)
      dsimp only
      rw [setChannel_total, setChannel_ledger]
      refine ⟨hmoves, fun d' hd' => ?_⟩
      cases hd'
      exact hmoves.settled hinv hsettled
    · exact ⟨.refl, fun d hd => by cases hd⟩
    · exact ⟨.refl, fun d hd => by cases hd⟩

lemma ends_tryRecv (hinv : Inv s h) :
    Comes (fun r : Except ChannelError (Option (List (Option UInt8) × Channel)) × SessionInner T =>
      Moves P s h r.2 h ∧ ∀ buf c', r.1 = .ok (some (buf, c')) → r.2.Settled c'.docNo) (c.tryRecv s : Outcome ε _) := by
  rw [tryRecv]
  split
  · exact ⟨.refl, fun buf c' hr => by cases hr⟩
  · apply (ends_takeReady hinv).bind
    rintro ⟨_ | _ | d, s'⟩ ⟨hmoves, hd⟩
    · exact ⟨hmoves, fun buf c' hr => by cases hr⟩
    · exact ⟨hmoves, fun buf c' hr => by cases hr⟩
    · refine ⟨hmoves, fun buf c' hr => ?_⟩
      cases hr
      exact hd d rfl

lemma ends_pollRecv (hinv : Inv s h) :
    Comes (fun r : Option (Except ChannelError (List (Option UInt8) × Channel)) × SessionInner T =>
      Moves P s h r.2 h ∧ ∀ buf c', r.1 = some (.ok (buf, c')) → r.2.Settled c'.docNo) (c.pollRecv s : Outcome ε _) := by
  rw [pollRecv]
  split
  · exact ⟨.refl, fun buf c' hr => by cases hr⟩
  · apply (ends_takeReady hinv).bind
    rintro ⟨_ | _ | d, s'⟩ ⟨hmoves, hd⟩
    · exact ⟨hmoves, fun buf c' hr => by cases hr⟩
    · exact ⟨hmoves, fun buf c' hr => by cases hr⟩
    · refine ⟨hmoves, fun buf c' hr => ?_⟩
      cases hr
      exact hd d rfl

lemma ends_sendSlot {doc : Bytes} {replyBuffer : SpecialReplyState} {fuel : ℕ} (hinv : Inv s h) (hr : replyBuffer.held = 0) :
    Yields (fun r : Channel × SessionInner T => Moves P s h r.2 h ∧ r.2.isSending r.1.docNo)
      (c.sendSlot doc replyBuffer fuel s : Outcome ε _) := by
  induction fuel generalizing s with
  | zero => trivial
  | succ fuel ih =>
    have hnext : Moves P s h { s with sendDocNo := (s.sendDocNo + 2) % 2 ^ 64 } h :=
      Same.moves ⟨rfl, rfl, rfl, rfl, rfl, .inr rfl, rfl⟩
    rw [sendSlot, slot]
    dsimp only
    rw [if_neg hinv.sendPos.ne', ok_bind, entryAt]
    split
    · rename_i e he
      rw [ok_bind]
      split_ifs with hfull
      · exact (ih (hnext.inv hinv)).imp (fun _ h => h) fun r hr => ⟨hnext.trans hr.1, hr.2⟩
      · rw [not_or, Option.not_isSome_iff_eq_none, Option.not_isSome_iff_eq_none] at hfull
        exact ⟨hnext.tail (.openChannel he hfull.1 hr), hinv.parity⟩
    · trivial

lemma ends_trySendAny {doc : Bytes} {replyBuffer : SpecialReplyState} (hinv : Inv s h) (hr : replyBuffer.held = 0) :
    Yields (fun r : Except (TrySendError × Bytes) Channel × SessionInner T =>
      Moves P s h r.2 h ∧ ∀ c', r.1 = .ok c' → r.2.Settled c'.docNo) (c.trySendAny doc replyBuffer s : Outcome ε _) := by
  have hother : ∀ {s' : SessionInner T} {e : TrySendError × Bytes}, Same s s' → Yields (fun r : Except (TrySendError × Bytes) Channel × SessionInner T =>
      Moves P s h r.2 h ∧ ∀ c', r.1 = .ok c' → r.2.Settled c'.docNo) (.ok (.error e, s') : Outcome ε _) :=
    fun hsame => ⟨hsame.moves, fun c' hc => by cases hc⟩
  rw [trySendAny]
  apply (ends_add (Q := fun _ => True) trivial trivial).bind
  intro sendTotal _
  dsimp only
  split_ifs
  · exact hother ⟨rfl, rfl, rfl, rfl, rfl, .inl rfl, rfl⟩
  · exact hother ⟨rfl, rfl, rfl, rfl, rfl, .inl rfl, rfl⟩
  · exact hother ⟨rfl, rfl, rfl, rfl, rfl, .inl rfl, rfl⟩
  · apply (ends_add (Q := fun _ => True) trivial trivial).bind
    intro sendBytesTotal _
    split_ifs
    · exact hother ⟨rfl, rfl, rfl, rfl, rfl, .inl rfl, rfl⟩
    · have hcharge : Moves P s h { s with sendTotal := sendTotal, sendBytesTotal := sendBytesTotal } h :=
        Same.moves ⟨rfl, rfl, rfl, rfl, rfl, .inl rfl, rfl⟩
      apply (ends_sendSlot (P := P) (hcharge.inv hinv) hr).bind
      rintro ⟨c', s'⟩ ⟨hmoves, hsend⟩
      refine ⟨hcharge.trans hmoves, fun c'' hc => ?_⟩
      cases hc
      exact .inl hsend

lemma moves_markClose (c : Channel) (hinv : SlotInv s h) : Moves P s h (c.markClose s) h := by
  rw [markClose]
  split_ifs
  · obtain ⟨e, he⟩ : ∃ e, s.sendTable[s.sendIdx c.docNo]? = some e :=
      ⟨_, List.getElem?_eq_getElem (Nat.mod_lt _ hinv.sendPos)⟩
    rw [modifySend, modify_eq_set he]
    exact (Move.flagSend true e.doc he).single
  · obtain ⟨e, he⟩ := exists_recv hinv.recvPos c.docNo
    rw [modifyRecv, modify_eq_set he]
    exact (Move.flagRecv true he).single

lemma ends_closeIfInner {f : OpenChannel → Outcome ε (Bool × OpenChannel)} (hinv : Inv s h) (hc : s.Settled c.docNo)
    (hf : ∀ channel, Yields (fun r => ∃ n, r.2 = { channel with refCount := n }) (f channel))
    (hP : ∀ channel channel' len reply, s.channelOf c.docNo = some channel → f channel = .ok (true, channel') →
      channel.replyBuffer = .recv len reply → P.lose) :
    Yields (fun r : Except ChannelError Unit × SessionInner T => Moves P s h r.2 h) (c.closeIfInner f s) := by
  rw [closeIfInner]
  apply (comes_channelSlot hinv.toSlotInv c.docNo).ends.bind
  rintro ⟨no, channel⟩ ⟨hno, -⟩
  cases channel with
  | none => exact .refl
  | some channel =>
    dsimp only
    split_ifs with heq
    · have hopen := hno heq
      apply (hf channel).and_eq.bind
      rintro ⟨close, _⟩ ⟨⟨n, rfl⟩, hclose⟩
      dsimp only
      split_ifs with hcl
      · rw [hcl] at hclose
        have hlocal : Moves P s h (s.setChannel c.docNo none) (h.take channel.held) := (Move.closeLocal hopen).single
        have hmoves := (hlocal.trans (moves_markClose c (hlocal.inv hinv).toSlotInv)).trans
          (moves_schedule variantControlClose c.docNo)
        apply (ends_dropClosedChannel (P := P) (hmoves.inv hinv) fun c' len reply hsome hreply => ?_).ends.bind
        · exact fun s' hs' => hmoves.trans hs'
        · cases hsome
          exact hP channel _ len reply hopen hclose hreply
      · exact (Move.count n hopen hc).single
    · exact .refl

lemma ends_closeIf {b : Bool} (hinv : Inv s h) (hc : s.Settled c.docNo)
    (hP : ∀ channel len reply, s.channelOf c.docNo = some channel → channel.replyBuffer = .recv len reply →
      c.checkBasic s = .ok () → b → P.lose) :
    Yields (fun r : Except ChannelError Unit × SessionInner T => Moves P s h r.2 h) (c.closeIf b s : Outcome ε _) := by
  rw [closeIf]
  split
  · exact .refl
  · rename_i hbasic
    refine ends_closeIfInner hinv hc (fun channel => ⟨channel.refCount, rfl⟩) fun channel channel' len reply hopen hf hreply => ?_
    cases hf
    exact hP channel len reply hopen hreply hbasic rfl

lemma ends_clone (hinv : Inv s h) (hc : s.Settled c.docNo) :
    Yields (fun r : Channel × SessionInner T => r.1 = c ∧ Moves P s h r.2 h) (c.clone s : Outcome ε _) := by
  rw [clone]
  apply Ends.bind (Q := fun r : Option Unit × SessionInner T => Moves P s h r.2 h)
  · refine ends_updateChannel hinv.toSlotInv (fun channel hopen => ?_) .refl
    refine (ends_add (Q := fun _ => True) trivial trivial).bind fun n _ => ?_
    exact (Move.count n hopen hc).single
  · exact fun r hr => ⟨rfl, hr⟩

lemma ends_drop (hinv : Inv s h) (hc : s.Settled c.docNo)
    (hP : ∀ channel len reply, s.channelOf c.docNo = some channel → channel.replyBuffer = .recv len reply →
      channel.refCount = 1 → P.lose) :
    Yields (fun s' => Moves P s h s' h) (c.drop s : Outcome ε _) := by
  rw [drop]
  apply (ends_closeIfInner (P := P) hinv hc (fun channel => ?_) fun channel channel' len reply hopen hf hreply => ?_).bind
  · exact fun r hr => hr
  · exact (ends_sub (Q := fun _ => True) trivial fun _ => trivial).bind fun n _ => ⟨n, rfl⟩
  · obtain ⟨n, hn, hf⟩ := bind_eq_ok.mp hf
    rw [Except.ok.injEq, Prod.mk.injEq, decide_eq_true_eq] at hf
    refine hP channel len reply hopen hreply ?_
    rw [sub] at hn
    split_ifs at hn with hle
    · have hzero : channel.refCount - 1 = 0 := (Except.ok.inj hn).trans hf.1
      omega
    · cases hn

end Channel

namespace SendReplyFuture

variable {fut : SendReplyFuture}

/-- The channel that the reply comes in. -/
def Settled (fut : SendReplyFuture) (s : SessionInner T) : Prop := ∀ reply, fut.state = .sent reply → s.Settled reply.docNo

lemma ends_pollSent {reply : Channel} (hinv : Inv s h) : Comes (fun r : Polled × SessionInner T =>
    Moves P s h r.2 h ∧ ∀ len c', r.1 = .ready len c' → r.2.Settled c'.docNo) (pollSent reply s : Outcome ε _) := by
  rw [pollSent]
  -- the reply is taken out, or nothing happens
  apply Ends.bind (Q := fun r : Option Polled × SessionInner T =>
    (∃ (channel : OpenChannel) (len : ℕ) (c' : UnreleasedChannel), s.channelOf reply.docNo = some channel ∧
      channel.replyBuffer = .recv len c' ∧ r = (some (.ready len ⟨c'.docNo, c'.hasSpecialParent, c'.isClosed⟩),
        s.setChannel reply.docNo (some { channel with replyBuffer := .none }))) ∨
    (∀ len c', r.1 ≠ some (.ready len c')) ∧ r.2 = s)
  · refine ends_updateChannel hinv.toSlotInv (fun channel hc => ?_) (.inr ⟨fun len c' hr => (by cases hr), rfl⟩)
    rw [takeReply]
    cases hr : channel.replyBuffer with
    | recv len c' => exact .inl ⟨channel, len, c', hc, hr, rfl⟩
    | awaiting => exact .inr ⟨fun len c' hr => (by cases hr), setChannel_self hc⟩
    | none => exact .inr ⟨fun len c' hr => (by cases hr), setChannel_self hc⟩
  · rintro ⟨polled, s'⟩ (⟨channel, len, c', hc, hr, heq⟩ | ⟨hnot, hs'⟩)
    · cases heq
      have hsettled : s.Settled c'.docNo := hinv.settled_of_held (u := .reply len c') hc (by
        rw [OpenChannel.held, hr]
        exact Multiset.mem_add.mpr (.inr (Multiset.mem_singleton_self _)))
      have hmoves : Moves P s h _ h := (Move.deliverReply hc hr).single
      dsimp only
      rw [setChannel_ledger]
      refine ⟨hmoves, fun len' c'' hready => ?_⟩
      cases hready
      exact hmoves.settled hinv hsettled
    · obtain rfl : s' = s := hs'
      rcases polled with _ | polled
      · exact ⟨.refl, fun len c' hr => by cases hr⟩
      · cases polled with
        | ready len c' => exact absurd rfl (hnot len c')
        | pending => exact ⟨.refl, fun len c' hr => by cases hr⟩
        | error e => exact ⟨.refl, fun len c' hr => by cases hr⟩

lemma ends_poll (hinv : Inv s h) (hfut : fut.Settled s) : Yields (fun r : Polled × SendReplyFuture × SessionInner T =>
    Moves P s h r.2.2 h ∧ r.2.1.Settled r.2.2 ∧ ∀ len c', r.1 = .ready len c' → r.2.2.Settled c'.docNo)
    (fut.poll s : Outcome ε _) := by
  rw [poll]
  cases hstate : fut.state with
  | sending doc =>
    have hkeep : ∀ s' : SessionInner T, fut.Settled s' := fun s' reply hsent => by
      rw [hstate] at hsent
      cases hsent
    dsimp only
    rw [pollSending]
    apply (Channel.ends_trySendAny (P := P) hinv rfl).bind
    rintro ⟨(⟨e, doc'⟩ | c'), s'⟩ ⟨hmoves, hsettled⟩
    · cases e with
      | full => exact ⟨hmoves, fun reply hsent => (by cases hsent), fun len c' hr => by cases hr⟩
      | _ => exact ⟨hmoves, hkeep s', fun len c' hr => by cases hr⟩
    · refine ⟨hmoves, fun reply hsent => ?_, fun len c' hr => by cases hr⟩
      cases hsent
      exact hsettled c' rfl
  | sent reply =>
    apply (ends_pollSent (P := P) hinv).ends.bind
    rintro ⟨polled, s'⟩ ⟨hmoves, hsettled⟩
    exact ⟨hmoves, fun reply hsent => hmoves.settled hinv (hfut reply hsent), hsettled⟩

lemma ends_drop (hinv : Inv s h) (hfut : fut.Settled s)
    (hP : ∀ reply channel len c', fut.state = .sent reply → s.channelOf reply.docNo = some channel →
      channel.replyBuffer = .recv len c' → channel.refCount = 1 → P.lose) :
    Yields (fun s' => Moves P s h s' h) (fut.drop s : Outcome ε _) := by
  rw [drop]
  cases hstate : fut.state with
  | sending doc => exact .refl
  | sent reply => exact Channel.ends_drop hinv (hfut reply hstate) fun channel len c' => hP reply channel len c' hstate

end SendReplyFuture

end Pqsnet.Session
