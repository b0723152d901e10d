import Pqsnet.Session.Arrival

/-! How a document is cut into segments. -/

namespace Pqsnet.Session.Segment

open Checked Outcome

variable {ε : Type} {docNo cap : ℕ} {doc doc' d : SendDoc} {isClosed acked : Bool} {seg : Segment} {segs : List Segment}

/-- The length of a header that has its document length, unless the document was acked. -/
def partHeaderLen (docNo : ℕ) (doc : SendDoc) : ℕ :=
  1 + varu64Len docNo +
  (if doc.nextSegOff = 0 then varu64Len doc.parentNo
    else (if !doc.hasBeenAcked && doc.hasSpecialParent then varu64Len doc.parentNo else 0) + varusizeLen doc.nextSegOff) +
  if doc.hasBeenAcked then 0 else varusizeLen doc.data.length

/-- There is something left of the document, but a segment does not fit, and nor does the document as a whole. -/
def NoRoom (docNo : ℕ) (doc : SendDoc) (cap : ℕ) : Prop :=
  doc.nextSegOff < doc.data.length ∧ partHeaderLen docNo doc + minSegDataLen > cap ∧
    (doc.nextSegOff = 0 → 1 + varu64Len docNo + varu64Len doc.parentNo + doc.data.length > cap)

/-- The next segment of a document, and what is left of the document. -/
structure Next (docNo : ℕ) (doc : SendDoc) (cap : ℕ) (seg : Segment) (doc' : SendDoc) : Prop where
  left : doc' = { doc with nextSegOff := doc.nextSegOff + seg.data.length }
  docNo : seg.docNo = docNo
  docLen : seg.docLen = doc.data.length
  parent : seg.docParentNo = doc.parentNo
  off : seg.off = doc.nextSegOff
  bound : doc.nextSegOff + seg.data.length ≤ doc.data.length
  data : seg.data = (doc.data.take (doc.nextSegOff + seg.data.length)).drop doc.nextSegOff
  nonempty : 0 < seg.data.length
  first : hasFlag seg.variant variantSegFlagIsFirst ↔ doc.nextSegOff = 0
  single : hasFlag seg.variant variantSegFlagIsSingleSeg → seg.data = doc.data
  fits : seg.Fits cap

lemma tryPart_next {variant : UInt8} {n : ℕ} (hoff : doc.nextSegOff < doc.data.length)
    (hflags : hasFlag (variant ||| flagIf (!doc.hasBeenAcked) variantSegFlagHasDocLen) variantSegFlagIsFirst = decide (doc.nextSegOff = 0) ∧
      hasFlag (variant ||| flagIf (!doc.hasBeenAcked) variantSegFlagHasDocLen) variantSegFlagIsSingleSeg = false)
    (h : (tryPart docNo doc variant n cap : Outcome ε _) = .ok (.ok (seg, doc'))) (hfits : seg.Fits cap) : Next docNo doc cap seg doc' := by
  obtain ⟨headerLen, len, hpos, hle, rfl, rfl⟩ := tryPart_ok hoff h
  obtain ⟨hlength, -⟩ := slice_piece hle
  refine ⟨by rw [hlength], rfl, rfl, rfl, rfl, hlength.symm ▸ hle, by rw [hlength], hlength.symm ▸ hpos, ?_, fun h => ?_, hfits⟩
  · rw [hflags.1, decide_eq_true_eq]
  · rw [hflags.2] at h
    cases h

lemma tryNew_next (hlen : doc.data.length < 2 ^ 64) (h : (tryNew docNo doc isClosed cap : Outcome ε _) = .ok (.ok (seg, doc'))) :
    Next docNo doc cap seg doc' := by
  have hfits : seg.Fits cap := (tryNew_fits (P := fun _ => True) hlen).ok h _ rfl
  have hsingle : ∀ closed special : Bool, hasFlag (flagIf closed variantSegFlagIsClosed ||| variantSegFlagIsFirst |||
      flagIf special variantSegFlagHasSpecialParent ||| variantSegFlagIsSingleSeg) variantSegFlagIsFirst = true := by decide
  have hfirst : ∀ closed special more : Bool,
      let v := flagIf closed variantSegFlagIsClosed ||| variantSegFlagIsFirst |||
        flagIf special variantSegFlagHasSpecialParent ||| flagIf more variantSegFlagHasDocLen;
      hasFlag v variantSegFlagIsFirst = true ∧ hasFlag v variantSegFlagIsSingleSeg = false := by decide
  have hlater : ∀ closed special more : Bool,
      let v := flagIf closed variantSegFlagIsClosed |||
        flagIf special variantSegFlagHasSpecialParent ||| flagIf more variantSegFlagHasDocLen;
      hasFlag v variantSegFlagIsFirst = false ∧ hasFlag v variantSegFlagIsSingleSeg = false := by decide
  rw [tryNew] at h
  by_cases hdone : doc.nextSegOff ≥ doc.data.length
  · rw [if_pos hdone] at h
    cases h
  rw [if_neg hdone] at h
  by_cases hzero : doc.nextSegOff = 0
  · rw [if_pos hzero] at h
    dsimp only at h
    split_ifs at h with hroom
    · cases h
      refine ⟨?_, rfl, rfl, rfl, rfl, ?_, ?_, by dsimp only; omega, ?_, fun _ => rfl, hfits⟩
      · rw [hzero, Nat.zero_add]
      · rw [hzero, Nat.zero_add]
      · rw [hzero, Nat.zero_add, List.take_length, List.drop_zero]
      · exact iff_of_true (hsingle _ _) hzero
    · refine tryPart_next (not_le.mp hdone) ?_ h hfits
      rw [decide_eq_true hzero]
      exact hfirst _ _ _
  · rw [if_neg hzero] at h
    refine tryPart_next (not_le.mp hdone) ?_ h hfits
    rw [decide_eq_false hzero]
    exact hlater _ _ _

lemma tryPart_eq_error {variant : UInt8} {n : ℕ} {full : Bool} (hoff : doc.nextSegOff < doc.data.length) (hlen : doc.data.length < 2 ^ 64) :
    (tryPart docNo doc variant n cap : Outcome ε _) = .ok (.error full) ↔
      full = true ∧ n + (if doc.hasBeenAcked then 0 else varusizeLen doc.data.length) + minSegDataLen > cap := by
  rw [tryPart]
  generalize n + (if doc.hasBeenAcked then 0 else varusizeLen doc.data.length) = k
  by_cases hroom : k + minSegDataLen > cap
  · rw [if_pos hroom, ok_inj, Except.error.injEq, and_iff_left hroom, eq_comm]
  · rw [if_neg hroom, sub_ok hoff.le, ok_bind, sub_ok (by omega), ok_bind, add_ok (by omega), ok_bind,
      slice_ok (by omega) (by omega), ok_bind]
    exact iff_of_false (fun h => (by cases h)) fun h => hroom h.2

lemma tryNew_eq_error {full : Bool} (hlen : doc.data.length < 2 ^ 64) :
    (tryNew docNo doc isClosed cap : Outcome ε _) = .ok (.error full) ↔
      (full = false ∧ doc.data.length ≤ doc.nextSegOff) ∨ (full = true ∧ NoRoom docNo doc cap) := by
  rw [tryNew, NoRoom, partHeaderLen]
  by_cases hdone : doc.nextSegOff ≥ doc.data.length
  · rw [if_pos hdone, ok_inj, Except.error.injEq, eq_comm]
    exact ⟨fun h => .inl ⟨h, hdone⟩, fun h => h.elim And.left fun h => absurd h.2.1 (not_lt.mpr hdone)⟩
  have hoff := not_le.mp hdone
  rw [if_neg hdone]
  by_cases hzero : doc.nextSegOff = 0
  · rw [if_pos hzero, if_pos hzero]
    dsimp only
    by_cases hroom : 1 + varu64Len docNo + varu64Len doc.parentNo + doc.data.length ≤ cap
    · rw [if_pos hroom]
      refine iff_of_false (fun h => (by cases h)) ?_
      rintro (⟨-, hle⟩ | ⟨-, -, -, hno⟩)
      · omega
      · exact absurd (hno hzero) (not_lt.mpr hroom)
    · rw [if_neg hroom, tryPart_eq_error hoff hlen]
      exact ⟨fun h => .inr ⟨h.1, hoff, h.2, fun _ => not_le.mp hroom⟩, fun h => h.elim (fun h => absurd h.2 hdone) fun h => ⟨h.1, h.2.2.1⟩⟩
  · rw [if_neg hzero, if_neg hzero, tryPart_eq_error hoff hlen, ← Nat.add_assoc]
    exact ⟨fun h => .inr ⟨h.1, hoff, h.2, fun h0 => absurd h0 hzero⟩, fun h => h.elim (fun h => absurd h.2 hdone) fun h => ⟨h.1, h.2.2.1⟩⟩

/-- The segments are the part of the document that was cut off, one after the other. -/
structure Partition (doc : SendDoc) (segs : List Segment) (d : SendDoc) : Prop where
  data : d.data = doc.data
  bound : d.nextSegOff ≤ doc.data.length
  bytes : segs.flatMap Segment.data = doc.data.take d.nextSegOff
  consecutive : ∀ pre seg post, segs = pre ++ seg :: post → seg.off = (pre.flatMap Segment.data).length
  nonempty : ∀ seg ∈ segs, seg.data ≠ []
  first : ∀ seg ∈ segs, hasFlag seg.variant variantSegFlagIsFirst ↔ seg.off = 0
  single : ∀ seg ∈ segs, hasFlag seg.variant variantSegFlagIsSingleSeg → seg.data = doc.data

lemma Partition.length_eq (h : Partition doc segs d) : (segs.flatMap Segment.data).length = d.nextSegOff := by
  rw [h.bytes, List.length_take, min_eq_left h.bound]

lemma Partition.concat (h : Partition doc segs d) (hnext : Next docNo { d with hasBeenAcked := acked } cap seg doc') :
    Partition doc (segs ++ [seg]) doc' := by
  have hdata := h.data
  have hbound := hnext.bound
  rw [hnext.left]
  refine ⟨hdata, hdata ▸ hbound, ?_, fun pre x post heq => ?_, fun x hx => ?_, fun x hx => ?_, fun x hx hsingle => ?_⟩
  · have hslice : seg.data = (doc.data.take (d.nextSegOff + seg.data.length)).drop d.nextSegOff := hdata ▸ hnext.data
    calc (segs ++ [seg]).flatMap Segment.data
      _ = doc.data.take d.nextSegOff ++ seg.data := by rw [List.flatMap_append, h.bytes, List.flatMap_singleton]
      _ = (doc.data.take (d.nextSegOff + seg.data.length)).take d.nextSegOff ++
          (doc.data.take (d.nextSegOff + seg.data.length)).drop d.nextSegOff := by
        rw [← hslice, List.take_take, min_eq_left (Nat.le_add_right _ _)]
      _ = doc.data.take (d.nextSegOff + seg.data.length) := List.take_append_drop _ _
  · rcases List.eq_nil_or_concat' post with rfl | ⟨post, y, rfl⟩
    · obtain ⟨rfl, hsame⟩ := List.append_inj' heq rfl
      rw [← List.singleton_inj.mp hsame, hnext.off, h.length_eq]
    · rw [← List.cons_append, ← List.append_assoc] at heq
      exact h.consecutive pre x post (List.append_inj' heq rfl).1
  · rcases List.mem_append.mp hx with hx | hx
    · exact h.nonempty x hx
    · rw [List.mem_singleton.mp hx]
      exact List.ne_nil_of_length_pos hnext.nonempty
  · rcases List.mem_append.mp hx with hx | hx
    · exact h.first x hx
    · rw [List.mem_singleton.mp hx, hnext.off]
      exact hnext.first
  · rcases List.mem_append.mp hx with hx | hx
    · exact h.single x hx hsingle
    · rw [List.mem_singleton.mp hx] at hsingle ⊢
      exact (hnext.single hsingle).trans hdata

end Pqsnet.Session.Segment
