import Pqsnet.Session.Emissions

/-! Whether a new packet has room for a segment. -/

namespace Pqsnet.Session

open Checked Outcome PacketBuilder SessionInner

variable {mtu : ℕ} {seg : Segment}

/-- The integers in the header of a segment are ones that can be encoded. -/
structure Segment.Encodes (seg : Segment) : Prop where
  docNo : seg.docNo ≤ varintMax
  parent : seg.docParentNo ≤ varintMax
  docLen : seg.docLen ≤ varintMax
  off : seg.off + seg.data.length ≤ seg.docLen

lemma remainingCap_new {ε : Type} {cap : ℕ} (h : ((new mtu).remainingCap : Outcome ε _) = .ok cap) : cap = mtu - 8 := by
  have hsub : (sub mtu 8 : Outcome ε _) = .ok cap := h
  rw [sub] at hsub
  split_ifs at hsub
  · exact (ok_inj.mp hsub).symm
  · cases hsub

lemma le_of_tryNew_error {ε : Type} {docNo : ℕ} {doc : SendDoc} {isClosed full : Bool} (hmtu : 57 ≤ mtu) (hlen : doc.data.length < 2 ^ 64)
    (h : (Segment.tryNew docNo doc isClosed (mtu - 8) : Outcome ε _) = .ok (.error full)) : doc.data.length ≤ doc.nextSegOff := by
  rcases (Segment.tryNew_eq_error hlen).mp h with ⟨-, hle⟩ | ⟨-, -, hno, -⟩
  · exact hle
  · have hle := Segment.partHeaderLen_le docNo doc
    simp only [minSegDataLen] at hno
    omega

lemma Segment.Encodes.range (h : seg.Encodes) : seg.off + seg.data.length < 2 ^ 64 :=
  (h.off.trans h.docLen).trans_lt (by decide)

section Loop

variable {T : Type} {tx : Tx T} {rest : List ElicitingFrame} {temp : Option PacketBuilder} {fuel : ℕ}

end Loop

end Pqsnet.Session
