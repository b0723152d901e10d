import Pqsnet.Session.Accounting
import Pqsnet.Session.Arrival
import Pqsnet.Session.Sections

/-! What a pass does with one document while it holds the lock of its slot, and the frame that it puts into a packet. -/

namespace Pqsnet.Session

open Checked Outcome PacketBuilder SessionInner

variable {T : Type} {tx : Tx T} {s : SessionInner T} {i docNo : ℕ} {frame : ElicitingFrame} {Q : SessionInner T → List PacketBuilder → Prop}

/-- One of the packets has the frame. -/
def Carries (packets : List PacketBuilder) (frame : ElicitingFrame) : Prop := ∃ p ∈ packets, frame ∈ p.elicitingFrames

def Tx.packets (tx : Tx T) : List PacketBuilder := tx.queued ++ [tx.packet]

def Sent.packets (out : Sent T) : List PacketBuilder := out.queued ++ (out.sentNow.map Prod.fst).toList

/-- Whether a pass goes on or returns, this holds of the session and of the packets that it has. -/
abbrev Leads (Q : SessionInner T → List PacketBuilder → Prop) (x : Outcome (Sent T) (Tx T)) : Prop :=
  Ends (fun _ => True) (fun out => Q out.session out.packets) (fun tx => Q tx.session tx.packets) x

/-- The packets have a new frame beside what the packets had before. -/
structure Gains (before : List PacketBuilder) (frame : ElicitingFrame) (packets : List PacketBuilder) : Prop where
  new : Carries packets frame
  kept : ∀ f, Carries before f → Carries packets f
  only : ∀ f, Carries packets f → f = frame ∨ Carries before f

/-- What becomes of a document, and the frame that says so. The slot is known to have the number of the document if it is
the pass that found it there. -/
inductive Handled (found : Prop) (before : List PacketBuilder) (s : SessionInner T) (i docNo : ℕ) (s' : SessionInner T)
    (packets : List PacketBuilder) : Prop
  | idle (hs : s'.view = s.view) (hput : ∀ f, Carries packets f → Carries before f) : Handled found before s i docNo s' packets
  | seg {e : SendDocMutable} {seg : Segment} {doc : SendDoc} (he : s.sendTable[i]? = some e) (hno : found → e.docNo = docNo)
      (hdoc : e.doc.isSome) (hseg : seg.docNo = docNo) (hclosed : hasFlag seg.variant variantSegFlagIsClosed = e.channel.isNone)
      (hput : Gains before (.seg seg) packets) (hs : WritesSend s s' i { e with doc := some doc, needsSendClose := false }) :
      Handled found before s i docNo s' packets
  | close {e : SendDocMutable} {variant : UInt8} (he : s.sendTable[i]? = some e) (hno : found → e.docNo = docNo)
      (hv : variant = variantControlClose ∨ variant = variantControlClose ||| variantControlFin)
      (hput : Gains before (.control variant docNo none) packets) (hs : WritesSend s s' i { e with needsSendClose := false }) :
      Handled found before s i docNo s' packets
  | control {e : RecvDocMutable} (he : s.recvTable[i]? = some e) (hno : e.docNo = docNo) (hflag : e.needsSendControl)
      (hput : Gains before (.control
        (flagIf e.channel.isNone variantControlClose ||| flagIf e.doc.slotIsFin variantControlFin) docNo none) packets)
      (hs : WritesRecv s s' i { e with needsSendControl := false }) : Handled found before s i docNo s' packets

namespace Handled

variable {found : Prop} {before before' packets : List PacketBuilder} {s' : SessionInner T}

lemma of_iff (h : Handled found before' s i docNo s' packets) (hp : ∀ f, Carries before' f ↔ Carries before f) :
    Handled found before s i docNo s' packets := by
  have hgains {frame : ElicitingFrame} (h : Gains before' frame packets) : Gains before frame packets :=
    ⟨h.new, fun f hf => h.kept f ((hp f).mpr hf), fun f hf => (h.only f hf).imp_right (hp f).mp⟩
  cases h with
  | idle hs hput => exact .idle hs fun f hf => (hp f).mp (hput f hf)
  | seg he hno hdoc hseg hclosed hput hs => exact .seg he hno hdoc hseg hclosed (hgains hput) hs
  | close he hno hv hput hs => exact .close he hno hv (hgains hput) hs
  | control he hno hflag hput hs => exact .control he hno hflag (hgains hput) hs

end Handled

section Emit

variable {last : SessionInner T → SessionInner T} {full : Bool} {q : PacketBuilder}

lemma leads_emit : Ends (fun _ => True) (fun out => out.session = last tx.session ∧ out.packets = tx.packets)
    (fun tx' => tx'.session = tx.session ∧ tx'.packet = .new tx.session.mtu ∧ tx'.packets = tx.packets ++ [tx'.packet])
    (tx.emit last none) := by
  rw [Tx.emit]
  apply (ends_sub (Q := fun _ => True) trivial fun _ => trivial).bind
  intro n _
  dsimp only
  split_ifs
  · exact ⟨rfl, by simp [Sent.packets, Tx.packets]⟩
  · exact ⟨rfl, rfl, rfl⟩

lemma carries_append_new {packets : List PacketBuilder} {mtu : ℕ} : Carries (packets ++ [.new mtu]) frame ↔ Carries packets frame := by
  simp [Carries, or_and_right, exists_or, PacketBuilder.new]

lemma PacketBuilder.Appended.gains {packets : List PacketBuilder} (h : Appended tx.packet [frame] q)
    (hp : ∀ f, Carries packets f ↔ Carries (Tx.packets { tx with packet := q }) f) : Gains tx.packets frame packets := by
  have hlast : ∀ f, Carries (Tx.packets { tx with packet := q }) f ↔ f = frame ∨ Carries tx.packets f := by
    intro f
    simp only [Carries, Tx.packets, List.mem_append, List.mem_singleton, or_and_right, exists_or, exists_eq_left, h.frames]
    rw [← or_assoc, or_comm]
  exact ⟨(hp _).mpr ((hlast _).mpr (.inl rfl)), fun f hf => (hp _).mpr ((hlast _).mpr (.inr hf)), fun f hf => (hlast _).mp ((hp _).mp hf)⟩

lemma leads_emitIf (hQ : ∀ packets, Gains tx.packets frame packets → Q tx.session packets) (h : Appended tx.packet [frame] q) :
    Leads Q (Tx.emitIf full { tx with packet := q } id none) := by
  rw [Tx.emitIf]
  split_ifs
  · apply leads_emit.imp
    · rintro out ⟨hs, hp⟩
      rw [hs, hp]
      exact hQ _ (h.gains fun _ => Iff.rfl)
    · rintro tx' ⟨hs, hnew, hp⟩
      rw [hs, hp, hnew]
      exact hQ _ (h.gains fun _ => carries_append_new)
  · exact hQ _ (h.gains fun _ => Iff.rfl)

end Emit

lemma leads_appendControl {variant : UInt8} (hQ : ∀ packets, Gains tx.packets (.control variant docNo none) packets → Q tx.session packets) :
    Leads Q (tx.appendControl variant docNo) := by
  rw [Tx.appendControl]
  apply (ends_appendControl (fun _ _ => trivial) variant docNo none).bind
  rintro ⟨full, q⟩ happ
  exact leads_emitIf hQ happ

lemma leads_appendSeg {seg : Segment} (hQ : ∀ packets, Gains tx.packets (.seg seg) packets → Q tx.session packets) :
    Leads Q (tx.appendSeg seg) := by
  rw [Tx.appendSeg]
  apply (ends_appendSeg (fun _ _ => trivial) seg).bind
  rintro ⟨full, q⟩ happ
  exact leads_emitIf hQ happ

lemma Segment.tryNew_marks {ε : Type} {doc doc' : SendDoc} {isClosed : Bool} {cap : ℕ} {seg : Segment}
    (h : (tryNew docNo doc isClosed cap : Outcome ε _) = .ok (.ok (seg, doc'))) :
    seg.docNo = docNo ∧ hasFlag seg.variant variantSegFlagIsClosed = isClosed := by
  have hflag : ∀ closed special more : Bool, ∀ first ∈ [0, variantSegFlagIsFirst],
      ∀ single ∈ [variantSegFlagIsSingleSeg, flagIf more variantSegFlagHasDocLen],
        hasFlag (flagIf closed variantSegFlagIsClosed ||| first ||| flagIf special variantSegFlagHasSpecialParent ||| single)
          variantSegFlagIsClosed = closed := by decide +kernel
  rw [tryNew] at h
  dsimp only at h
  generalize 1 + varu64Len docNo + (if !doc.hasBeenAcked && doc.hasSpecialParent then varu64Len doc.parentNo else 0) = n at h
  split_ifs at h with hdone hzero hroom
  · cases h
  · cases h
    exact ⟨rfl, hflag _ _ false _ (by simp) _ (by simp)⟩
  · obtain ⟨_, _, -, -, -, rfl⟩ := tryPart_ok (not_le.mp hdone) h
    exact ⟨rfl, hflag _ _ (!doc.hasBeenAcked) _ (by simp) _ (by simp)⟩
  · obtain ⟨_, _, -, -, -, rfl⟩ := tryPart_ok (not_le.mp hdone) h
    refine ⟨rfl, ?_⟩
    have hrest := hflag isClosed (!doc.hasBeenAcked && doc.hasSpecialParent) (!doc.hasBeenAcked) 0 (by simp) _
      (List.mem_cons_of_mem _ (List.mem_singleton_self _))
    rwa [UInt8.or_zero] at hrest

variable {found : Prop} {e : SendDocMutable}

lemma leads_sendSeg {seg : Segment} {doc : SendDoc} (he : tx.session.sendTable[i]? = some e) (hno : found → e.docNo = docNo)
    (hdoc : e.doc.isSome) (hseg : seg.docNo = docNo) (hclosed : hasFlag seg.variant variantSegFlagIsClosed = e.channel.isNone) :
    Leads (Handled found tx.packets tx.session i docNo) (sendSeg tx i e seg doc) := by
  rw [sendSeg]
  exact leads_appendSeg fun packets hput => .seg he hno hdoc hseg hclosed hput rfl

lemma leads_sendClose {variant : UInt8} (he : tx.session.sendTable[i]? = some e) (hno : found → e.docNo = docNo)
    (hv : variant = variantControlClose ∨ variant = variantControlClose ||| variantControlFin) :
    Leads (Handled found tx.packets tx.session i docNo) (sendClose tx i docNo e variant) := by
  rw [sendClose]
  split_ifs
  · exact leads_appendControl fun packets hput => .close he hno hv hput rfl
  · exact .idle rfl fun _ => id

lemma leads_sendRetry (hno : found → ∀ e, tx.session.sendTable[i]? = some e → e.docNo = docNo) :
    Leads (Handled found tx.packets tx.session i docNo) (sendRetry tx i docNo) := by
  rw [sendRetry]
  apply (ends_entryAt trivial).bind
  intro e he
  split
  · rename_i doc hdoc
    apply (ends_remainingCap fun _ _ => trivial).bind
    intro cap _
    apply (Segment.ends_tryNew fun _ _ => trivial).and_eq.bind
    rintro (_ | ⟨seg, doc'⟩) ⟨-, hnew⟩
    · exact .idle rfl fun _ => id
    · obtain ⟨hseg, hclosed⟩ := Segment.tryNew_marks hnew
      exact leads_sendSeg he (fun hf => hno hf e he) (by rw [hdoc]; rfl) hseg hclosed
  · exact leads_sendClose he (fun hf => hno hf e he) (.inr rfl)

lemma leads_sendSending : Leads (Handled True tx.packets tx.session (tx.session.sendIdx docNo) docNo) (sendSending tx docNo) := by
  rw [sendSending]
  apply (ends_slot trivial).bind
  rintro i rfl
  apply (ends_entryAt trivial).bind
  intro e he
  split
  · exact .idle rfl fun _ => id
  rename_i hno
  have hno : e.docNo = docNo := not_not.mp hno
  split
  · rename_i doc hdoc
    apply (ends_remainingCap fun _ _ => trivial).bind
    intro cap _
    apply (Segment.ends_tryNew fun _ _ => trivial).and_eq.bind
    rintro ((_ | _) | ⟨seg, doc'⟩) ⟨-, hnew⟩
    · exact leads_sendClose he (fun _ => hno) (.inl rfl)
    · apply leads_emit.bind_imp
      · rintro out ⟨hs, hp⟩
        rw [hs, hp]
        exact .idle rfl fun _ => id
      · rintro tx' ⟨hs, hnew, hp⟩
        rw [← hs] at he ⊢
        rw [hnew] at hp
        have hframes : ∀ f, Carries tx'.packets f ↔ Carries tx.packets f := fun f => by rw [hp, carries_append_new]
        have hretry : Leads (Handled True tx'.packets tx'.session (tx'.session.sendIdx docNo) docNo)
            (sendRetry tx' (tx'.session.sendIdx docNo) docNo) :=
          leads_sendRetry fun _ e' he' => Option.some.inj (he'.symm.trans he) ▸ hno
        exact hretry.imp (fun _ h => h.of_iff hframes) fun _ h => h.of_iff hframes
    · obtain ⟨hseg, hclosed⟩ := Segment.tryNew_marks hnew
      exact leads_sendSeg he (fun _ => hno) (by rw [hdoc]; rfl) hseg hclosed
  · exact leads_sendClose he (fun _ => hno) (.inr rfl)

lemma leads_sendReceiving : Leads (Handled True tx.packets tx.session (tx.session.recvIdx docNo) docNo) (sendReceiving tx docNo) := by
  rw [sendReceiving]
  apply (ends_slot trivial).bind
  rintro i rfl
  apply (ends_entryAt trivial).bind
  intro e he
  split
  · exact .idle rfl fun _ => id
  rename_i hskip
  obtain ⟨hno, hflag⟩ := not_or.mp hskip
  exact leads_appendControl fun packets hput => .control he (not_not.mp hno) (by simpa using hflag) hput rfl

/-- Where a pass looks for a document. -/
def SessionInner.docIdx (s : SessionInner T) (docNo : ℕ) : ℕ := if s.isSending docNo then s.sendIdx docNo else s.recvIdx docNo

theorem leads_sendDoc : Leads (Handled True tx.packets tx.session (tx.session.docIdx docNo) docNo) (sendDoc tx docNo) := by
  rw [sendDoc, docIdx]
  split_ifs
  · exact leads_sendSending
  · exact leads_sendReceiving

end Pqsnet.Session
