import Pqsnet.Session.Accounting
import Pqsnet.Session.Handles

/-! A pass over what there is to send leaves received documents alone. -/

namespace Pqsnet.Session.SessionInner

open Checked Outcome PacketBuilder

variable {T : Type} {s : SessionInner T} {tx : Tx T} {R : SessionInner T → Prop}

lemma any_panic : ∀ p : Panic, p ≠ .loopBound → True := fun _ _ => trivial

/-- Whether a pass goes on or returns, the session has the property. -/
abbrev Stays (R : SessionInner T → Prop) (x : Outcome (Sent T) (Tx T)) : Prop :=
  Ends (fun _ => True) (fun out => R out.session) (fun tx => R tx.session) x

section Emit

variable {last : SessionInner T → SessionInner T} {temp : Option PacketBuilder}

lemma stays_emit (h : R tx.session) (hl : ∀ s, R s → R (last s)) : Stays R (tx.emit last temp) := by
  rw [Tx.emit]
  apply (ends_sub (Q := fun _ => True) trivial fun _ => trivial).bind
  intro n _
  dsimp only
  split_ifs
  · exact hl _ h
  · exact h

lemma stays_emitIf (tx : Tx T) {full : Bool} (h : R tx.session) (hl : ∀ s, R s → R (last s)) : Stays R (Tx.emitIf full tx last temp) := by
  rw [Tx.emitIf]
  split_ifs
  · exact stays_emit h hl
  · exact h

lemma stays_appendSeg {seg : Segment} (h : R tx.session) : Stays R (tx.appendSeg seg) := by
  rw [Tx.appendSeg]
  apply (ends_appendSeg any_panic seg).bind
  rintro ⟨full, packet⟩ -
  exact stays_emitIf _ h fun _ => id

lemma stays_appendControl {variant : UInt8} {docNo : ℕ} (h : R tx.session) : Stays R (tx.appendControl variant docNo) := by
  rw [Tx.appendControl]
  apply (ends_appendControl any_panic variant docNo none).bind
  rintro ⟨full, packet⟩ -
  exact stays_emitIf _ h fun _ => id

end Emit

/-- A property that does not depend on acks, nor on what is in flight. -/
structure Apart (R : SessionInner T → Prop) : Prop where
  acks : ∀ s i acks, R s → R (s.setAcks i acks)
  orphans : ∀ s frames, R s → R (s.addOrphans frames)
  flight : ∀ s queue unacked, R s → R { s with packetQueue := queue, unackedPackets := unacked }

namespace Apart

variable {temp : Option PacketBuilder}

lemma appendAcks {i : ℕ} {sockets : List SocketData} (hR : Apart R) (h : R tx.session) : Stays R (appendAcks i sockets tx) := by
  induction sockets generalizing i tx with
  | nil => exact h
  | cons socketData sockets ih =>
    rw [SessionInner.appendAcks]
    apply (ends_appendSortedAcks any_panic).bind
    rintro ⟨full, packet, acks⟩ -
    apply (stays_emitIf { tx with packet := packet, session := tx.session.setAcks i acks } (hR.acks _ i acks h) fun _ => id).bind
    exact fun tx' h' => ih h'

lemma resendSeg {rest : List ElicitingFrame} {fuel : ℕ} {seg : Segment} (hR : Apart R) (h : R tx.session) :
    Stays R (resendSeg rest temp fuel tx seg) := by
  induction fuel generalizing tx seg with
  | zero => trivial
  | succ fuel ih =>
    rw [SessionInner.resendSeg]
    apply (ends_tryAppendSeg any_panic seg).bind
    rintro ⟨sendNow, overflowSeg, packet⟩ -
    apply (stays_emitIf { tx with packet := packet } h fun s => hR.orphans s _).bind
    intro tx' h'
    cases overflowSeg with
    | none => exact h'
    | some seg => exact ih h'

lemma resendFrames {frames : List ElicitingFrame} (hR : Apart R) (tx : Tx T) (h : R tx.session) : Stays R (resendFrames temp frames tx) := by
  induction frames generalizing tx with
  | nil => exact h
  | cons frame rest ih =>
    cases frame with
    | seg seg =>
      rw [SessionInner.resendFrames]
      apply (hR.resendSeg h).bind
      exact fun tx' h' => ih tx' h'
    | control variant docNo label =>
      rw [SessionInner.resendFrames]
      apply (ends_appendControl any_panic variant docNo label).bind
      rintro ⟨full, packet⟩ -
      apply (stays_emitIf { tx with packet := packet } h fun s => hR.orphans s _).bind
      exact fun tx' h' => ih tx' h'

lemma resendPayload {payload : SentPayload T} (hR : Apart R) (h : R tx.session) : Stays R (resendPayload tx payload) := by
  rw [SessionInner.resendPayload]
  apply (ends_ownPacket any_panic).bind
  intro own _
  split_ifs
  · apply (hR.resendFrames { tx with packet := .new tx.session.mtu } h).bind
    intro tx' h'
    apply (stays_emit h' fun _ => id).bind
    exact fun tx'' h'' => h''
  · exact hR.resendFrames tx h

lemma finish {pass : Pass T} (hR : Apart R) (h : R tx.session) :
    Ends (fun _ => True) (fun out => R out.session) (fun out => R out.session) (finish tx pass) := by
  rw [SessionInner.finish]
  split_ifs
  · exact h
  · rw [sendNow, bind_assoc]
    apply (ends_encryptPacket any_panic).bind
    rintro ⟨uid, datagram⟩ -
    exact hR.flight _ _ _ h

variable [LT T] [DecidableLT T]

lemma resendLoop {rto : T} (hR : Apart R) (h : R tx.session) : Stays R (resendLoop rto (tx.session.packetQueue.length + 1) tx) := by
  have hdrained : R (drained rto tx).session := hR.flight _ _ _ h
  rw [resendLoop_eq]
  cases (removed tx.session.unackedPackets (expired rto tx.session.packetQueue)).getLast? with
  | none => exact hdrained
  | some payload => exact hR.resendPayload hdrained

end Apart

variable {P : Permits} {h : Hand}

/-- Whether a pass goes on or returns, it came there from `s` in small steps. -/
abbrev Passes (P : Permits) (s : SessionInner T) (h : Hand) (x : Outcome (Sent T) (Tx T)) : Prop := Stays (Moves P s h · h) x

lemma apart_moves : Apart (Moves P s h · h) :=
  ⟨fun _ _ _ hm => hm.trans (Same.moves ⟨rfl, rfl, rfl, rfl, rfl, .inl rfl, rfl⟩),
    fun _ _ hm => hm.trans (Same.moves ⟨rfl, rfl, rfl, rfl, rfl, .inl rfl, rfl⟩),
    fun _ _ _ hm => hm.trans (Same.moves ⟨rfl, rfl, rfl, rfl, rfl, .inl rfl, rfl⟩)⟩

section Documents

variable {i docNo : ℕ}

lemma passes_sendClose {entry : SendDocMutable} {variant : UInt8} (hm : Moves P s h tx.session h)
    (he : tx.session.sendTable[i]? = some entry) : Passes P s h (sendClose tx i docNo entry variant) := by
  rw [sendClose]
  split_ifs
  · exact stays_appendControl (hm.tail (.flagSend false entry.doc he))
  · exact hm

lemma passes_sendSeg {entry : SendDocMutable} {seg : Segment} {doc : SendDoc} (hm : Moves P s h tx.session h)
    (he : tx.session.sendTable[i]? = some entry) : Passes P s h (sendSeg tx i entry seg doc) :=
  stays_appendSeg (hm.tail (.flagSend false (some doc) he))

lemma passes_sendRetry (hm : Moves P s h tx.session h) : Passes P s h (sendRetry tx i docNo) := by
  rw [sendRetry]
  apply (ends_entryAt trivial).bind
  intro entry he
  split
  · apply (ends_remainingCap any_panic).bind
    intro cap _
    apply (Segment.ends_tryNew any_panic).bind
    rintro (_ | ⟨seg, doc⟩) -
    · exact hm
    · exact passes_sendSeg hm he
  · exact passes_sendClose hm he

lemma passes_sendSending (hm : Moves P s h tx.session h) : Passes P s h (sendSending tx docNo) := by
  rw [sendSending]
  apply (ends_slot trivial).bind
  intro i _
  apply (ends_entryAt trivial).bind
  intro entry he
  split_ifs
  · exact hm
  split
  · apply (ends_remainingCap any_panic).bind
    intro cap _
    apply (Segment.ends_tryNew any_panic).bind
    rintro ((_ | _) | ⟨seg, doc⟩) -
    · exact passes_sendClose hm he
    · have hrequeue : ∀ s', Moves P s h s' h → Moves P s h { s' with sendQueue := docNo :: s'.sendQueue } h :=
        fun _ hm => hm.trans (Same.moves ⟨rfl, rfl, rfl, rfl, rfl, .inl rfl, rfl⟩)
      apply Ends.bind (stays_emit hm hrequeue)
      exact fun tx' hm' => passes_sendRetry hm'
    · exact passes_sendSeg hm he
  · exact passes_sendClose hm he

lemma passes_sendReceiving (hm : Moves P s h tx.session h) : Passes P s h (sendReceiving tx docNo) := by
  rw [sendReceiving]
  apply (ends_slot trivial).bind
  intro i _
  apply (ends_entryAt trivial).bind
  intro entry he
  split_ifs
  · exact hm
  · exact stays_appendControl (R := (Moves P s h · h)) (hm.tail (.flagRecv false he))

lemma passes_sendDocs {docs : List ℕ} (hm : Moves P s h tx.session h) : Passes P s h (sendDocs docs tx) := by
  induction docs generalizing tx with
  | nil => exact hm
  | cons docNo rest ih =>
    have hm' : Moves P s h { tx.session with sendQueue := rest } h :=
      hm.trans (Same.moves ⟨rfl, rfl, rfl, rfl, rfl, .inl rfl, rfl⟩)
    have hdoc : Passes P s h (sendDoc { tx with session := { tx.session with sendQueue := rest } } docNo) := by
      rw [sendDoc]
      split_ifs
      · exact passes_sendSending hm'
      · exact passes_sendReceiving hm'
    rw [sendDocs]
    apply hdoc.bind
    exact fun tx' hm'' => ih hm''

end Documents

variable [LT T] [DecidableLT T]

lemma transmit_moves {ε : Type} {pass : Pass T} :
    Yields (fun out => Moves P s h out.session h) (transmit s pass : Outcome ε _) := by
  rw [transmit]
  split_ifs
  · exact .refl
  · have hrun : Ends (fun _ => True) (fun out => Moves P s h out.session h) (fun out => Moves P s h out.session h)
        (runPass s pass) := by
      rw [runPass]
      apply (apart_moves.appendAcks .refl).bind
      intro tx hm
      apply (apart_moves.resendLoop hm).bind
      intro tx' hm'
      apply (passes_sendDocs hm').bind
      exact fun tx'' hm'' => apart_moves.finish hm''
    apply hrun.attempt.bind
    rintro _ (⟨out, rfl, hm⟩ | ⟨out, rfl, hm⟩)
    · exact hm
    · exact hm

end Pqsnet.Session.SessionInner
