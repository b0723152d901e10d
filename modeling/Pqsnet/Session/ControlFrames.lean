import Pqsnet.Session.Borrows

/-! A slot that still has to announce a close has no channel any more, so that what a pass announces is a close. -/

namespace Pqsnet.Session

open Checked Outcome SessionInner

variable {T : Type} {s s' : SessionInner T} {i docNo : ℕ} {before packets : List PacketBuilder}

/-- The variant of a control frame says that the channel is closed. -/
def SaysClose (variant : UInt8) : Prop := variant &&& variantControlClose = variantControlClose

lemma SaysClose.ne_terminator {variant : UInt8} (h : SaysClose variant) : variant ≠ variantNullTerminator := by
  rintro rfl
  cases h

lemma saysClose_or (b : Bool) : SaysClose (variantControlClose ||| flagIf b variantControlFin) := by
  cases b <;> rfl

/-- What a pass over a document puts into its packets: beside segments only control frames that say close, and among them what a
slot had to announce that has nothing to announce any more. -/
structure Announces (before : List PacketBuilder) (s s' : SessionInner T) (packets : List PacketBuilder) : Prop where
  control : ∀ variant docNo label, Carries packets (.control variant docNo label) → Carries before (.control variant docNo label) ∨
    SaysClose variant ∧ variant ≠ variantNullTerminator
  recv : ∀ (i : ℕ) (e e' : RecvDocMutable), s.recvTable[i]? = some e → s'.recvTable[i]? = some e' → e.needsSendControl →
    ¬ e'.needsSendControl → ∃ variant, SaysClose variant ∧ Carries packets (.control variant e.docNo none)
  send : ∀ (i : ℕ) (e e' : SendDocMutable), s.sendTable[i]? = some e → s'.sendTable[i]? = some e' → e.needsSendClose →
    ¬ e'.needsSendClose → (∃ seg, seg.docNo = e.docNo ∧ hasFlag seg.variant variantSegFlagIsClosed ∧ Carries packets (.seg seg)) ∨
      ∃ variant, SaysClose variant ∧ Carries packets (.control variant e.docNo none)

namespace Announces

lemma recv_same (ht : s'.recvTable = s.recvTable) (i : ℕ) (e e' : RecvDocMutable) (he : s.recvTable[i]? = some e)
    (he' : s'.recvTable[i]? = some e') (hset : e.needsSendControl) (hclear : ¬ e'.needsSendControl) :
    ∃ variant, SaysClose variant ∧ Carries packets (.control variant e.docNo none) := by
  rw [ht] at he'
  cases he.symm.trans he'
  exact absurd hset hclear

lemma send_same (ht : s'.sendTable = s.sendTable) (i : ℕ) (e e' : SendDocMutable) (he : s.sendTable[i]? = some e)
    (he' : s'.sendTable[i]? = some e') (hset : e.needsSendClose) (hclear : ¬ e'.needsSendClose) :
    (∃ seg, seg.docNo = e.docNo ∧ hasFlag seg.variant variantSegFlagIsClosed ∧ Carries packets (.seg seg)) ∨
      ∃ variant, SaysClose variant ∧ Carries packets (.control variant e.docNo none) := by
  rw [ht] at he'
  cases he.symm.trans he'
  exact absurd hset hclear

lemma control_of_gains {frame : ElicitingFrame} (h : Gains before frame packets)
    (hf : ∀ variant docNo label, frame = .control variant docNo label → SaysClose variant) (variant : UInt8) (docNo : ℕ)
    (label : Option ℕ) (hc : Carries packets (.control variant docNo label)) :
    Carries before (.control variant docNo label) ∨ SaysClose variant ∧ variant ≠ variantNullTerminator := by
  obtain heq | hold := h.only _ hc
  · have hclose := hf variant docNo label heq.symm
    exact .inr ⟨hclose, hclose.ne_terminator⟩
  · exact .inl hold

end Announces

lemma Handled.announces (h : Handled True before s i docNo s' packets) (hflag : Flagged s) : Announces before s s' packets := by
  cases h with
  | idle hs hput =>
    exact ⟨fun _ _ _ hc => .inl (hput _ hc), Announces.recv_same (recvTable_of_view hs), Announces.send_same (sendTable_of_view hs)⟩
  | @seg e seg doc he hno hdoc hseg hclosed hput hs =>
    refine ⟨Announces.control_of_gains hput fun _ _ _ h => (by cases h), Announces.recv_same hs.recvTable, fun j x x' hx hx' hset hclear => ?_⟩
    obtain ⟨rfl, rfl⟩ | ⟨hne, hx'⟩ := hs.get hx'
    · cases hx.symm.trans he
      refine .inl ⟨seg, hseg.trans (hno trivial).symm, ?_, hput.new⟩
      rw [hclosed, hflag.send _ _ hx hset]
      rfl
    · cases hx.symm.trans hx'
      exact absurd hset hclear
  | @close e variant he hno hv hput hs =>
    have hclose : SaysClose variant := by
      obtain rfl | rfl := hv <;> rfl
    refine ⟨Announces.control_of_gains hput fun _ _ _ h => ?_, Announces.recv_same hs.recvTable, fun j x x' hx hx' hset hclear => ?_⟩
    · cases h
      exact hclose
    · obtain ⟨rfl, rfl⟩ | ⟨hne, hx'⟩ := hs.get hx'
      · cases hx.symm.trans he
        rw [hno trivial]
        exact .inr ⟨variant, hclose, hput.new⟩
      · cases hx.symm.trans hx'
        exact absurd hset hclear
  | @control e he hno hset hput hs =>
    have hclose : SaysClose (flagIf e.channel.isNone variantControlClose ||| flagIf e.doc.slotIsFin variantControlFin) := by
      rw [hflag.recv i e he hset]
      exact saysClose_or _
    refine ⟨Announces.control_of_gains hput fun _ _ _ h => ?_, fun j x x' hx hx' hset' hclear => ?_, Announces.send_same hs.sendTable⟩
    · cases h
      exact hclose
    · obtain ⟨rfl, rfl⟩ | ⟨hne, hx'⟩ := hs.get hx'
      · cases hx.symm.trans he
        rw [hno]
        exact ⟨_, hclose, hput.new⟩
      · cases hx.symm.trans hx'
        exact absurd hset' hclear

namespace Machine

variable {C : Machine T → ℕ → Prop} {m m' : Machine T}

lemma Run.kept {e : SendDocMutable} (h : Run C m m') (hm : m.Sound) (he : m.session.sendTable[m.session.sendIdx docNo]? = some e)
    (hdoc : e.doc.isSome) : ∃ e', m'.session.sendTable[m'.session.sendIdx docNo]? = some e' ∧ e'.docNo = e.docNo ∧ e'.doc.isSome := by
  refine Run.keeps (Q := fun s => ∃ e', s.sendTable[s.sendIdx docNo]? = some e' ∧ e'.docNo = e.docNo ∧ e'.doc.isSome) h hm
    (fun hc hq => ?_) ⟨e, he, rfl, hdoc⟩
  obtain ⟨x, hx, hno, hdoc⟩ := hq
  obtain ⟨x', hx', hno', hdoc', -⟩ := hc.kept hx hdoc
  exact ⟨x', by rwa [hc.sendIdx], hno'.trans hno, hdoc'⟩

/-- A slot whose flag is set has no channel, in either table, so everything that a pass announces says close. A pass may look at the
slot of a document for a second time, after others have used the session. -/
theorem flags_imply_closed (hm : m.Reachable fun _ _ => True) : Flagged m.session ∧
    (∀ (tx : Tx T) docNo, tx.session = m.session → Leads (Announces tx.packets m.session) (sendDoc tx docNo)) ∧
    ∀ docNo (e : SendDocMutable), m.session.sendTable[m.session.sendIdx docNo]? = some e → e.docNo = docNo → e.doc.isSome →
      ∀ m', Run (fun _ _ => True) m m' → ∀ tx : Tx T, tx.session = m'.session →
        Leads (Announces tx.packets m'.session) (sendRetry tx (m'.session.sendIdx docNo) docNo) := by
  have hsound := hm.sound
  refine ⟨hsound.coherent.flagged, fun tx docNo htx => ?_, fun docNo e he hno hdoc m' hrun tx htx => ?_⟩
  · have hleads : Leads (Handled True tx.packets tx.session (tx.session.docIdx docNo) docNo) (sendDoc tx docNo) := leads_sendDoc
    rw [htx] at hleads
    exact hleads.imp (fun _ h => h.announces hsound.coherent.flagged) fun _ h => h.announces hsound.coherent.flagged
  · obtain ⟨e', he', hno', -⟩ := Run.kept hrun hsound he hdoc
    have hflag := (Run.sound hrun hsound).coherent.flagged
    have hleads : Leads (Handled True tx.packets tx.session (m'.session.sendIdx docNo) docNo)
        (sendRetry tx (m'.session.sendIdx docNo) docNo) := leads_sendRetry fun _ x hx => by
      rw [htx, he'] at hx
      cases hx
      exact hno'.trans hno
    rw [htx] at hleads
    exact hleads.imp (fun _ h => h.announces hflag) fun _ h => h.announces hflag

/-- A future was dropped, so that the close of its channel has to be announced. -/
theorem flags_imply_closed_orphaned : orphaned.session.sendTable[0]? = some ⟨1, true, some ⟨1, false, false, 0, [1]⟩, none⟩ ∧
    Flagged orphaned.session ∧ ∀ tx : Tx ℕ, tx.session = orphaned.session → Leads (Announces tx.packets orphaned.session) (sendDoc tx 1) := by
  have h := flags_imply_closed ⟨oneHandle, oneHandle_initial, orphaned_run⟩
  exact ⟨rfl, h.1, fun tx htx => h.2.1 tx 1 htx⟩

end Machine

end Pqsnet.Session
