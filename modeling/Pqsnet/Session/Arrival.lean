import Pqsnet.Checked.MarkedWords
import Pqsnet.Session.SegmentCodec
import Pqsnet.Session.SlotReuse

/-! What a receiver makes of the segments of a document, in whatever order they arrive. -/

namespace Pqsnet.Session

open Checked Outcome

variable {T ε : Type}

/-- What a segment says of its document, as long as no segment of it was acked. -/
structure SegFrame.PieceOf (f : SegFrame) (docNo : ℕ) (d : SendDoc) : Prop where
  docNo : f.docNo = docNo
  docLen : f.docLen = some d.data.length
  nonempty : f.data ≠ []
  bound : f.off + f.data.length ≤ d.data.length
  data : ∀ k, k < f.data.length → f.data[k]? = d.data[f.off + k]?
  special : f.hasSpecialParent = d.hasSpecialParent
  parentNo : f.parentNo = if d.hasSpecialParent || f.isFirst then some d.parentNo else none

namespace Segment

variable {docNo cap : ℕ} {doc doc' : SendDoc} {isClosed : Bool} {seg : Segment}

lemma tryPart_ok {variant : UInt8} {n : ℕ} (hoff : doc.nextSegOff < doc.data.length)
    (hnew : (tryPart docNo doc variant n cap : Outcome ε _) = .ok (.ok (seg, doc'))) : ∃ headerLen len, 0 < len ∧
      doc.nextSegOff + len ≤ doc.data.length ∧ doc' = { doc with nextSegOff := doc.nextSegOff + len } ∧
      seg = ⟨variant ||| flagIf (!doc.hasBeenAcked) variantSegFlagHasDocLen, headerLen, docNo, doc.data.length, doc.parentNo,
        doc.nextSegOff, (doc.data.take (doc.nextSegOff + len)).drop doc.nextSegOff, none⟩ := by
  rw [tryPart] at hnew
  by_cases hfit : n + (if doc.hasBeenAcked then 0 else varusizeLen doc.data.length) + minSegDataLen > cap
  · rw [if_pos hfit] at hnew
    cases hnew
  · have hroom : 16 + (n + if doc.hasBeenAcked then 0 else varusizeLen doc.data.length) ≤ cap :=
      (Nat.add_comm _ _).trans_le (not_lt.mp hfit)
    rw [if_neg hfit, sub_ok hoff.le, ok_bind, sub_ok ((Nat.le_add_left _ _).trans hroom), ok_bind] at hnew
    obtain ⟨next, hnext, hnew⟩ := bind_eq_ok.mp hnew
    obtain ⟨data, hdata, hnew⟩ := bind_eq_ok.mp hnew
    have hsum : next = doc.nextSegOff + min (doc.data.length - doc.nextSegOff)
        (cap - (n + if doc.hasBeenAcked then 0 else varusizeLen doc.data.length)) := eq_of_add_eq_ok hnext
    obtain ⟨-, hle, rfl⟩ := slice_eq_ok.mp hdata
    subst hsum
    cases hnew
    refine ⟨_, _, ?_, hle, rfl, rfl⟩
    omega

lemma slice_piece {data : Bytes} {off len : ℕ} (hle : off + len ≤ data.length) :
    ((data.take (off + len)).drop off).length = len ∧
      ∀ k, k < len → ((data.take (off + len)).drop off)[k]? = data[off + k]? := by
  refine ⟨by rw [List.length_drop, List.length_take]; omega, fun k hk => ?_⟩
  rw [List.getElem?_drop, List.getElem?_take_of_lt (by omega)]

lemma tryNew_piece (hacked : doc.hasBeenAcked = false)
    (hnew : (tryNew docNo doc isClosed cap : Outcome ε _) = .ok (.ok (seg, doc'))) :
    seg.received.PieceOf docNo doc ∧ ∃ off, doc' = { doc with nextSegOff := off } := by
  have hsingle : ∀ closed special : Bool,
      let v := flagIf closed variantSegFlagIsClosed ||| variantSegFlagIsFirst |||
        flagIf special variantSegFlagHasSpecialParent ||| variantSegFlagIsSingleSeg;
      hasFlag v variantSegFlagIsSingleSeg = true ∧ hasFlag v variantSegFlagHasSpecialParent = special ∧
        hasFlag v variantSegFlagIsFirst = true := by decide
  have hpart : ∀ closed special first : Bool,
      let v := flagIf closed variantSegFlagIsClosed ||| flagIf first variantSegFlagIsFirst |||
        flagIf special variantSegFlagHasSpecialParent ||| flagIf true variantSegFlagHasDocLen;
      hasFlag v variantSegFlagHasDocLen = true ∧ hasFlag v variantSegFlagHasSpecialParent = special ∧
        hasFlag v variantSegFlagIsFirst = first := by decide
  have hpieces : ∀ (first : Bool) {variant : UInt8} {n : ℕ}, doc.nextSegOff < doc.data.length →
      variant = flagIf isClosed variantSegFlagIsClosed ||| flagIf first variantSegFlagIsFirst |||
        flagIf doc.hasSpecialParent variantSegFlagHasSpecialParent →
      (tryPart docNo doc variant n cap : Outcome ε _) = .ok (.ok (seg, doc')) →
      seg.received.PieceOf docNo doc ∧ ∃ off, doc' = { doc with nextSegOff := off } := by
    intro first variant n hoff hv hnew
    obtain ⟨headerLen, len, hpos, hle, rfl, rfl⟩ := tryPart_ok hoff hnew
    obtain ⟨hlen, hspecial, hfirst⟩ := hpart isClosed doc.hasSpecialParent first
    obtain ⟨hlength, hslice⟩ := slice_piece hle
    rw [hacked, Bool.not_false, hv]
    refine ⟨⟨rfl, ?_, ?_, ?_, ?_, hspecial, ?_⟩, _, rfl⟩
    · rw [received]
      dsimp only
      rw [hlen, Bool.true_or, if_pos rfl]
    · exact List.ne_nil_of_length_pos (hpos.trans_eq hlength.symm)
    · exact (congrArg (doc.nextSegOff + ·) hlength).trans_le hle
    · exact fun k hk => hslice k (hk.trans_eq hlength)
    · rw [received]
      dsimp only
      rw [hspecial]
  rw [tryNew] at hnew
  by_cases hdone : doc.nextSegOff ≥ doc.data.length
  · rw [if_pos hdone] at hnew
    cases hnew
  rw [if_neg hdone] at hnew
  by_cases hzero : doc.nextSegOff = 0
  · rw [if_pos hzero] at hnew
    dsimp only at hnew
    split_ifs at hnew with hroom
    · cases hnew
      obtain ⟨hone, hspecial, hfirst⟩ := hsingle isClosed doc.hasSpecialParent
      refine ⟨⟨rfl, ?_, ?_, ?_, fun k _ => ?_, hspecial, ?_⟩, _, rfl⟩
      · rw [received]
        dsimp only
        rw [hone, Bool.or_true, if_pos rfl]
      · exact List.ne_nil_of_length_pos (Nat.zero_lt_of_lt (not_le.mp hdone))
      · rw [received]
        dsimp only
        rw [hzero, Nat.zero_add]
      · rw [received]
        dsimp only
        rw [hzero, Nat.zero_add]
      · rw [received]
        dsimp only
        rw [hspecial]
    · exact hpieces true (not_le.mp hdone) rfl hnew
  · rw [if_neg hzero, hacked, Bool.not_false, Bool.true_and] at hnew
    refine hpieces false (not_le.mp hdone) ?_ hnew
    rw [flagIf, flagIf]
    exact congrArg (· ||| _) UInt8.or_zero.symm

/-- Any number of segments, cut off a document one after another. -/
inductive Segmented (docNo : ℕ) : SendDoc → List Segment → Prop
  | nil {doc : SendDoc} : Segmented docNo doc []
  | cons {doc doc' : SendDoc} {isClosed : Bool} {cap : ℕ} {seg : Segment} {segs : List Segment}
      (hnew : (tryNew docNo doc isClosed cap : Outcome Unit _) = .ok (.ok (seg, doc'))) (hrest : Segmented docNo doc' segs) :
      Segmented docNo doc (seg :: segs)

lemma Segmented.piece {segs : List Segment} (hcut : Segmented docNo doc segs) (hacked : doc.hasBeenAcked = false) :
    ∀ seg ∈ segs, seg.received.PieceOf docNo doc := by
  induction hcut with
  | nil => exact fun seg hseg => absurd hseg List.not_mem_nil
  | cons hnew _ ih =>
    obtain ⟨hpiece, off, rfl⟩ := tryNew_piece hacked hnew
    intro seg hseg
    rcases List.mem_cons.mp hseg with rfl | hseg
    · exact hpiece
    · -- the pieces do not depend on how far the document was cut
      obtain ⟨hno, hlen, hne, hbound, hdata, hspecial, hparent⟩ := ih hacked seg hseg
      exact ⟨hno, hlen, hne, hbound, hdata, hspecial, hparent⟩

end Segment

namespace RecvDoc

variable {doc doc' : RecvDoc} {data seg : Bytes} {segOff segEnd k : ℕ} {complete : Bool}

/-- The loop over the words in the middle of a segment leaves out the last of them. -/
def Skipped (segOff segEnd k : ℕ) : Prop := segOff / 64 + 2 ≤ segEnd / 64 ∧ k / 64 + 1 = segEnd / 64

lemma mem_marks {ms : List (ℕ × BitVec 64)} (hle : segOff ≤ segEnd) (hms : (marks segOff segEnd : Outcome ε _) = .ok ms) :
    (∃ x ∈ ms, k / 64 = x.1 ∧ x.2.getMsbD (k % 64)) ↔ (segOff ≤ k ∧ k ≤ segEnd) ∧ ¬ Skipped segOff segEnd k := by
  have hmod : k % 64 < 64 := Nat.mod_lt _ (by decide)
  have hoff : (BitVec.allOnes 64 >>> (segOff % 64)).getMsbD (k % 64) ↔ segOff % 64 ≤ k % 64 := by
    rw [BitVec.getMsbD_ushiftRight, BitVec.getMsbD_allOnes]
    simp only [Bool.and_eq_true, Bool.not_eq_true', decide_eq_true_eq, decide_eq_false_iff_not]
    omega
  have hend : (BitVec.allOnes 64 <<< (64 - segEnd % 64 - 1)).getMsbD (k % 64) ↔ k % 64 ≤ segEnd % 64 := by
    rw [BitVec.getMsbD_shiftLeft, BitVec.getMsbD_allOnes, decide_eq_true_eq]
    omega
  rw [marks] at hms
  dsimp only at hms
  rw [Skipped]
  split_ifs at hms with heq
  · cases hms
    simp only [List.mem_singleton, exists_eq_left, BitVec.getMsbD_and, Bool.and_eq_true, hoff, hend]
    omega
  · rw [sub_ok (by omega), ok_bind] at hms
    cases hms
    simp only [List.mem_cons, List.mem_append, List.mem_map, List.mem_range'_1, List.not_mem_nil, or_false, or_and_right,
      exists_or, exists_eq_left, hoff, hend]
    have hmiddle : (∃ x : ℕ × BitVec 64, (∃ j, (segOff / 64 + 1 ≤ j ∧ j < segOff / 64 + 1 + (segEnd / 64 - 1 - (segOff / 64 + 1))) ∧
        (j, BitVec.allOnes 64) = x) ∧ k / 64 = x.1 ∧ x.2.getMsbD (k % 64) = true) ↔
        segOff / 64 + 1 ≤ k / 64 ∧ k / 64 + 1 < segEnd / 64 := by
      constructor
      · rintro ⟨_, ⟨j, hj, rfl⟩, hidx, -⟩
        dsimp only at hidx
        omega
      · intro hk
        refine ⟨_, ⟨k / 64, by omega, rfl⟩, rfl, ?_⟩
        rw [BitVec.getMsbD_allOnes, decide_eq_true_eq]
        exact hmod
    rw [hmiddle]
    clear hmiddle
    omega

lemma isMarked_checkOverlaps {ms : List (ℕ × BitVec 64)} {setSegs setSegs' : List (BitVec 64)} {n : ℕ}
    (h : (checkOverlaps ms setSegs : Outcome ε _) = .ok (n, setSegs')) :
    isMarked setSegs' k ↔ isMarked setSegs k ∨ ∃ x ∈ ms, k / 64 = x.1 ∧ x.2.getMsbD (k % 64) := by
  induction ms generalizing setSegs n with
  | nil =>
    cases h
    simp
  | cons x ms ih =>
    obtain ⟨idx, bits⟩ := x
    rw [checkOverlaps, checkOverlap] at h
    cases hx : setSegs[idx]? with
    | none =>
      rw [hx] at h
      cases h
    | some pre =>
      rw [hx] at h
      dsimp only at h
      rw [ok_bind] at h
      obtain ⟨⟨m, segs⟩, hrest, heq⟩ := bind_eq_ok.mp h
      cases heq
      rw [ih hrest, isMarked_set_or hx, or_assoc, List.exists_mem_cons_iff]

/-- What is marked as received is there. -/
structure Holds (data : Bytes) (doc : RecvDoc) : Prop where
  sane : doc.Sane
  mem : ∃ m, doc.mem = .simple m ∧ m.length = data.length ∧
    ∀ k, isMarked doc.setSegs k → k < data.length ∧ m[k]? = data[k]?.map some

lemma getElem?_write {m : List (Option UInt8)} (hle : segOff + seg.length ≤ m.length) (k : ℕ) :
    (m.take segOff ++ seg.map some ++ m.drop (segOff + seg.length))[k]? =
      if segOff ≤ k ∧ k < segOff + seg.length then seg[k - segOff]?.map some else m[k]? := by
  have hlen : (m.take segOff).length = segOff := by
    rw [List.length_take]
    omega
  rw [List.append_assoc, List.getElem?_append, hlen]
  split_ifs with h1 h2 h2
  · omega
  · rw [List.getElem?_take_of_lt h1]
  · rw [List.getElem?_append_left (by rw [List.length_map]; omega), List.getElem?_map]
  · rw [List.getElem?_append_right (by rw [List.length_map]; omega), List.length_map, List.getElem?_drop]
    congr 1
    omega

lemma recvDoc_ok (hne : seg ≠ []) (hr : doc.recvDoc segOff seg = .ok (complete, doc')) : ∃ ms n setSegs mem,
    segOff + seg.length ≤ doc.mem.len ∧ (marks segOff (segOff + seg.length - 1) : Outcome RecvError _) = .ok ms ∧
      (checkOverlaps ms doc.setSegs : Outcome RecvError _) = .ok (n, setSegs) ∧
      (doc.mem.write segOff seg : Outcome RecvError _) = .ok mem ∧ segOff + seg.length < 2 ^ 64 ∧
      doc'.setSegs = setSegs ∧ doc'.mem = mem := by
  have hpos : 0 < seg.length := List.length_pos_iff.mpr hne
  rw [recvDoc] at hr
  dsimp only at hr
  rw [if_neg fun hempty => hne (List.isEmpty_iff.mp hempty)] at hr
  obtain ⟨stop, hstop, hr⟩ := bind_eq_ok.mp hr
  have hsmall : segOff + seg.length < 2 ^ 64 := by
    by_contra hlt
    rw [add, if_neg hlt] at hstop
    cases hstop
  obtain rfl := eq_of_add_eq_ok hstop
  rw [sub_ok (by omega), ok_bind] at hr
  by_cases hend : segOff + seg.length - 1 ≥ doc.mem.len
  · rw [if_pos hend] at hr
    cases hr
  · rw [if_neg hend] at hr
    obtain ⟨ms, hms, hr⟩ := bind_eq_ok.mp hr
    obtain ⟨⟨n, setSegs⟩, hover, hr⟩ := bind_eq_ok.mp hr
    obtain ⟨total, -, hr⟩ := bind_eq_ok.mp hr
    obtain ⟨mem, hmem, hr⟩ := bind_eq_ok.mp hr
    cases hr
    exact ⟨ms, n, setSegs, mem, by omega, hms, hover, hmem, hsmall, rfl, rfl⟩

lemma recvDoc_marked {m : List (Option UInt8)} (hne : seg ≠ []) (hmem : doc.mem = .simple m)
    (hr : doc.recvDoc segOff seg = .ok (complete, doc')) : ∃ m', doc'.mem = .simple m' ∧ m'.length = m.length ∧
      ∀ k, isMarked doc'.setSegs k → (segOff ≤ k ∧ k < segOff + seg.length ∧ k < m.length ∧ m'[k]? = seg[k - segOff]?.map some) ∨
        (isMarked doc.setSegs k ∧ m'[k]? = m[k]?) := by
  obtain ⟨ms, n, setSegs, mem, hle, hms, hover, hwrite, hsmall, hsegs, hmem'⟩ := recvDoc_ok hne hr
  have hpos : 0 < seg.length := List.length_pos_iff.mpr hne
  rw [hmem] at hle hwrite
  have hbound : segOff + seg.length ≤ m.length := hle
  rw [DocMem.write, add_ok hsmall, ok_bind, if_pos ⟨Nat.le_add_right _ _, hbound⟩] at hwrite
  cases hwrite
  refine ⟨_, hmem', ?_, fun k hk => ?_⟩
  · simp only [List.length_append, List.length_take, List.length_map, List.length_drop]
    omega
  · rw [hsegs] at hk
    rw [getElem?_write hbound]
    by_cases hin : segOff ≤ k ∧ k < segOff + seg.length
    · rw [if_pos hin]
      exact .inl ⟨hin.1, hin.2, by omega, rfl⟩
    · rw [if_neg hin]
      rcases (isMarked_checkOverlaps hover).mp hk with hold | hnew
      · exact .inr ⟨hold, rfl⟩
      · obtain ⟨hrange, -⟩ := (mem_marks (by omega) hms).mp hnew
        exact absurd (by omega) hin

lemma Holds.recvDoc (hdoc : doc.Holds data) (hne : seg ≠ []) (hseg : ∀ k, k < seg.length → seg[k]? = data[segOff + k]?)
    (hr : doc.recvDoc segOff seg = .ok (complete, doc')) : doc'.Holds data := by
  obtain ⟨m, hmem, hlen, hmarked⟩ := hdoc.mem
  have htook := (ends_recvDoc (S := fun _ => True) hdoc.sane fun _ _ => trivial).ok hr
  obtain ⟨m', hmem', hlen', hmarked'⟩ := recvDoc_marked hne hmem hr
  refine ⟨htook.sane, m', hmem', hlen'.trans hlen, fun k hk => ?_⟩
  rcases hmarked' k hk with ⟨hlow, hhigh, hlt, hbyte⟩ | ⟨hold, hbyte⟩
  · rw [hbyte, hseg _ (by omega), Nat.add_sub_cancel' hlow]
    exact ⟨hlen ▸ hlt, rfl⟩
  · rw [hbyte]
    exact hmarked k hold

lemma Holds.mem_eq (hdoc : doc.Holds data) (htotal : doc.totalRecv = doc.mem.len) : doc.mem = .simple (data.map some) := by
  obtain ⟨m, hmem, hlen, hmarked⟩ := hdoc.mem
  have hsum : (doc.setSegs.map fun x => (ones x).length).sum = data.length := by
    rw [← hdoc.sane.total, htotal, hmem]
    exact hlen
  rw [hmem]
  congr 1
  apply List.ext_getElem?
  intro k
  rw [List.getElem?_map]
  by_cases hk : k < data.length
  · exact (hmarked k (isMarked_of_sum_eq (by norm_num) (fun k hk => (hmarked k hk).1) hsum hk)).2
  · rw [List.getElem?_eq_none (by omega), List.getElem?_eq_none (by omega), Option.map_none]

/-- The last byte of a reply buffer is not written. -/
def Lacks (doc : RecvDoc) : Prop := ∃ range m, doc.mem = .replyBuf range m ∧ ∀ k, k + 1 = range.len → m[k]? = some none

/-- Every segment is written to the start of a reply buffer and must be shorter than it. -/
lemma Lacks.recvDoc (hdoc : doc.Lacks) (hne : seg ≠ []) (hr : doc.recvDoc segOff seg = .ok (complete, doc')) :
    doc'.Lacks ∧ 0 < doc'.mem.len := by
  obtain ⟨range, m, hmem, hlast⟩ := hdoc
  obtain ⟨ms, n, setSegs, mem, hle, -, -, hwrite, -, -, hmem'⟩ := recvDoc_ok hne hr
  have hpos : 0 < seg.length := List.length_pos_iff.mpr hne
  rw [hmem, DocMem.write] at hwrite
  by_cases hshort : seg.length < range.len
  swap
  · rw [if_neg hshort] at hwrite
    cases hwrite
  rw [if_pos hshort] at hwrite
  cases hwrite
  refine ⟨⟨range, _, hmem', fun k hk => ?_⟩, ?_⟩
  · rw [List.getElem?_append_right (by rw [List.length_map]; omega), List.length_map, List.getElem?_drop,
      Nat.add_sub_cancel' (by omega)]
    exact hlast k hk
  · rw [hmem', DocMem.len]
    omega

end RecvDoc

/-- The bytes of a document, as far as they are written. -/
def DocMem.bytes : DocMem → List (Option UInt8)
  | simple m => m
  | replyBuf _ m => m

lemma RecvDoc.Lacks.bytes_ne {doc : RecvDoc} (hdoc : doc.Lacks) (hpos : 0 < doc.mem.len) (data : Bytes) :
    doc.mem.bytes ≠ data.map some := by
  obtain ⟨range, m, hmem, hlast⟩ := hdoc
  rw [hmem] at hpos ⊢
  intro heq
  have hget := hlast (range.len - 1) (Nat.sub_add_cancel hpos)
  rw [show m = _ from heq, List.getElem?_map] at hget
  cases hk : data[range.len - 1]? <;> rw [hk] at hget <;> cases hget

/-- The last one of the segments completes the document. -/
inductive RecvDoc.Fills : RecvDoc → List SegFrame → RecvDoc → Prop
  | last {doc doc' : RecvDoc} {f : SegFrame} (h : doc.recvDoc f.off f.data = .ok (true, doc')) : Fills doc [f] doc'
  | more {doc doc₁ doc' : RecvDoc} {f : SegFrame} {fs : List SegFrame} (h : doc.recvDoc f.off f.data = .ok (false, doc₁))
      (hrest : Fills doc₁ fs doc') : Fills doc (f :: fs) doc'

namespace RecvDoc

variable {doc doc' : RecvDoc} {d : SendDoc} {fs : List SegFrame} {docNo : ℕ}

lemma recvDoc_header {seg : Bytes} {segOff : ℕ} {complete : Bool} (hr : doc.recvDoc segOff seg = .ok (complete, doc')) :
    doc'.parentNo = doc.parentNo ∧ doc'.hasSpecialParent = doc.hasSpecialParent := by
  rw [recvDoc] at hr
  dsimp only at hr
  by_cases hempty : seg.isEmpty
  · rw [if_pos hempty] at hr
    cases hr
    exact ⟨rfl, rfl⟩
  · rw [if_neg hempty] at hr
    obtain ⟨_, -, hr⟩ := bind_eq_ok.mp hr
    obtain ⟨_, -, hr⟩ := bind_eq_ok.mp hr
    split_ifs at hr
    · cases hr
    obtain ⟨_, -, hr⟩ := bind_eq_ok.mp hr
    obtain ⟨_, -, hr⟩ := bind_eq_ok.mp hr
    obtain ⟨_, -, hr⟩ := bind_eq_ok.mp hr
    obtain ⟨_, -, hr⟩ := bind_eq_ok.mp hr
    cases hr
    exact ⟨rfl, rfl⟩

lemma Fills.header (hfill : doc.Fills fs doc') : doc'.parentNo = doc.parentNo ∧ doc'.hasSpecialParent = doc.hasSpecialParent := by
  induction hfill with
  | last h => exact recvDoc_header h
  | more h _ ih =>
    obtain ⟨hparent, hspecial⟩ := recvDoc_header h
    exact ⟨ih.1.trans hparent, ih.2.trans hspecial⟩

lemma Fills.mem_eq (hfill : doc.Fills fs doc') (hdoc : doc.Holds d.data) (hfs : ∀ f ∈ fs, f.PieceOf docNo d) :
    doc'.mem = .simple (d.data.map some) := by
  induction hfill with
  | last h =>
    have hf := hfs _ (List.mem_singleton_self _)
    have htook := (ends_recvDoc (S := fun _ => True) hdoc.sane fun _ _ => trivial).ok h
    exact (hdoc.recvDoc hf.nonempty hf.data h).mem_eq (htook.complete rfl)
  | more h _ ih =>
    have hf := hfs _ List.mem_cons_self
    exact ih (hdoc.recvDoc hf.nonempty hf.data h) fun g hg => hfs g (List.mem_cons_of_mem _ hg)

lemma Fills.lacks (hfill : doc.Fills fs doc') (hdoc : doc.Lacks) (hfs : ∀ f ∈ fs, f.PieceOf docNo d) :
    doc'.Lacks ∧ 0 < doc'.mem.len := by
  induction hfill with
  | last h => exact hdoc.recvDoc (hfs _ (List.mem_singleton_self _)).nonempty h
  | more h _ ih =>
    exact ih (hdoc.recvDoc (hfs _ List.mem_cons_self).nonempty h).1 fun g hg => hfs g (List.mem_cons_of_mem _ hg)

/-- The document that is handed over is the one that was sent. -/
structure Faithful (d : SendDoc) (doc : RecvDoc) : Prop where
  parentNo : doc.parentNo = some d.parentNo
  hasSpecialParent : doc.hasSpecialParent = d.hasSpecialParent
  bytes : doc.mem.bytes = d.data.map some

lemma holds_newDoc {f : SegFrame} {n : ℕ} (hn : n < 2 ^ 63) (data : Bytes) (hlen : n = data.length) :
    (SessionInner.newDoc f n (.simple (List.replicate n none))).Holds data := by
  refine ⟨SessionInner.newDoc_sane fun m hm => ?_, _, rfl, List.length_replicate.trans hlen, fun k hk => ?_⟩
  · cases hm
    exact ⟨List.length_replicate, hn⟩
  · exact absurd hk (not_isMarked_replicate _ k)

/-- A complete document is the one that was sent if and only if it has memory of its own and its parent is known: the
segment that came first carries it. -/
lemma Fills.faithful_iff {f : SegFrame} {buffer : Option BufRange} {mem : DocMem}
    (hmem : (alloc d.data.length buffer : Outcome RecvError _) = .ok mem)
    (hfill : (SessionInner.newDoc f d.data.length mem).Fills (f :: fs) doc') (hfs : ∀ g ∈ f :: fs, g.PieceOf docNo d) :
    doc'.Faithful d ↔ buffer = none ∧ (f.isFirst ∨ d.hasSpecialParent) := by
  have hf := hfs f List.mem_cons_self
  obtain ⟨hparent, hspecial⟩ := hfill.header
  have hknown : doc'.parentNo = some d.parentNo ↔ (f.isFirst ∨ d.hasSpecialParent) := by
    rw [hparent, SessionInner.newDoc, hf.parentNo]
    cases d.hasSpecialParent <;> cases f.isFirst <;> simp
  cases buffer with
  | some range =>
    cases hmem
    have hlacks := hfill.lacks (⟨range, _, rfl, fun k hk => ?_⟩) hfs
    · refine iff_of_false (fun hdoc => hlacks.1.bytes_ne hlacks.2 d.data hdoc.bytes) fun h => ?_
      cases h.1
    · rw [List.getElem?_replicate, if_pos (by omega)]
  | none =>
    rw [alloc] at hmem
    by_cases hn : d.data.length < 2 ^ 63
    swap
    · rw [if_neg hn] at hmem
      cases hmem
    rw [if_pos hn] at hmem
    cases hmem
    refine ⟨fun hdoc => ⟨rfl, hknown.mp hdoc.parentNo⟩, fun h => ⟨hknown.mpr h.2, hspecial.trans hf.special, ?_⟩⟩
    rw [hfill.mem_eq (holds_newDoc hn d.data rfl) hfs]
    rfl

end RecvDoc

end Pqsnet.Session
