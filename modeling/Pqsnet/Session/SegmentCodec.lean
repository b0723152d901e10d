import Pqsnet.Session.Append
import Pqsnet.Session.Segments

/-! What the receiver reads from a packet of segments is what the sender put into it. -/

namespace Pqsnet.Session

open Checked Outcome

/-- An integer that reads back as it was written, wherever it stands. -/
def RoundTrips (v : ℕ) : Prop := ∀ a c : Bytes,
  (tryRead (2 ^ 64 - 1) (a ++ (varusizeWrite v ++ c)) a.length : Outcome RecvError _) = .ok (some v, a.length + varusizeLen v)

lemma roundTrips_of_le {v : ℕ} (hv : v ≤ varintU32Max) : RoundTrips v := fun _ _ => tryRead_write _ hv rfl rfl

/-! Flags and the bits that tell the form of the length do not touch each other. -/

lemma or_and_distrib (a b c : UInt8) : (a ||| b) &&& c = (a &&& c) ||| (b &&& c) := by
  apply UInt8.toNat_inj.mp
  simp only [UInt8.toNat_and, UInt8.toNat_or, Nat.and_or_distrib_right]

lemma hasFlag_or (variant : UInt8) {form flag : UInt8} (h : form &&& flag = 0) :
    hasFlag (variant ||| form) flag = hasFlag variant flag := by
  rw [hasFlag, hasFlag, or_and_distrib, h, UInt8.or_zero]

namespace Segment

/-- The header behind the variant. -/
def fields (seg : Segment) : Bytes :=
  varu64Write seg.docNo ++
  (if hasFlag seg.variant variantSegFlagHasDocLen then varusizeWrite seg.docLen else []) ++
  (if hasFlag seg.variant variantSegFlagHasSpecialParent || hasFlag seg.variant variantSegFlagIsFirst then
    varu64Write seg.docParentNo else []) ++
  if hasFlag seg.variant variantSegFlagIsFirst then [] else varusizeWrite seg.off

lemma header_eq (seg : Segment) : seg.header = seg.variant :: seg.fields := by
  simp only [header, fields, List.append_assoc, List.cons_append, List.nil_append]

/-- What a receiver should see of a segment. -/
def received (seg : Segment) : SegFrame where
  docNo := seg.docNo
  docLen := if hasFlag seg.variant variantSegFlagHasDocLen || hasFlag seg.variant variantSegFlagIsSingleSeg then
    some seg.docLen else none
  parentNo := if hasFlag seg.variant variantSegFlagHasSpecialParent || hasFlag seg.variant variantSegFlagIsFirst then
    some seg.docParentNo else none
  off := seg.off
  data := seg.data
  hasSpecialParent := hasFlag seg.variant variantSegFlagHasSpecialParent
  isFirst := hasFlag seg.variant variantSegFlagIsFirst
  isSingleSeg := hasFlag seg.variant variantSegFlagIsSingleSeg
  isClosed := hasFlag seg.variant variantSegFlagIsClosed

/-- The parent is older, and every integer in the header reads back. -/
structure Encodable (seg : Segment) : Prop where
  older : seg.docParentNo < seg.docNo
  docNo : RoundTrips seg.docNo
  docLen : hasFlag seg.variant variantSegFlagHasDocLen → RoundTrips seg.docLen
  parent : hasFlag seg.variant variantSegFlagHasSpecialParent || hasFlag seg.variant variantSegFlagIsFirst →
    RoundTrips seg.docParentNo
  off : ¬ hasFlag seg.variant variantSegFlagIsFirst → RoundTrips seg.off

end Segment

namespace SegFrame

variable {packet a c data : Bytes} {i v : ℕ} {debug : Bool} {x : UInt8} {seg : Segment}

lemma readVar_write (h : RoundTrips v) (hb : packet = a ++ (varusizeWrite v ++ c)) (hi : i = a.length) :
    readVar packet i = .ok (v, i + varusizeLen v) := by
  rw [readVar, hb, hi, varusizeTryRead, h a c, ok_bind]

lemma readDocLen_write {has : Bool} (h : has → RoundTrips v)
    (hb : packet = a ++ ((if has then varusizeWrite v else []) ++ c)) (hi : i = a.length) :
    readDocLen has packet i =
      .ok (if has then some v else none, i + (if has then varusizeWrite v else []).length) := by
  cases has with
  | false => rfl
  | true =>
    rw [readDocLen, if_pos rfl, readVar_write (h rfl) hb hi, ok_bind, ← varusizeWrite_length]
    rfl

lemma readParent_write {has : Bool} {docNo : ℕ} (h : has → RoundTrips v) (hv : v < docNo)
    (hb : packet = a ++ ((if has then varusizeWrite v else []) ++ c)) (hi : i = a.length) :
    readParent has docNo packet i =
      .ok (if has then some v else none, i + (if has then varusizeWrite v else []).length) := by
  cases has with
  | false => rfl
  | true =>
    rw [readParent, if_pos rfl, readVar_write (h rfl) hb hi, ok_bind, ← varusizeWrite_length]
    exact if_neg (not_le.mpr hv)

lemma readOff_write {first : Bool} (h : ¬ first → RoundTrips v) (hv : first → v = 0)
    (hb : packet = a ++ ((if first then [] else varusizeWrite v) ++ c)) (hi : i = a.length) :
    readOff first packet i = .ok (v, i + (if first then [] else varusizeWrite v).length) := by
  cases first with
  | false => rw [readOff, if_neg Bool.false_ne_true, readVar_write (h Bool.false_ne_true) hb hi, if_neg Bool.false_ne_true,
      varusizeWrite_length]
  | true => rw [hv rfl, readOff, if_pos rfl, if_pos rfl, List.length_nil, add_zero]

lemma parse_fields {form : UInt8} (hseg : seg.Encodable) (hmade : seg.WellMade) (hform : ∀ flag : UInt8,
    variantSegLenMask &&& flag = 0 → form &&& flag = 0) (hb : packet = a ++ (seg.fields ++ c)) (hi : i = a.length) :
    parse debug (seg.variant ||| form) packet i = (do
      let (data, i) ← readData debug ((seg.variant ||| form) &&& variantSegLenMask) packet (i + seg.fields.length)
      .ok ({ seg.received with
        docLen := if hasFlag seg.variant variantSegFlagIsSingleSeg then
          some ((if hasFlag seg.variant variantSegFlagHasDocLen then some seg.docLen else none).getD data.length)
          else if hasFlag seg.variant variantSegFlagHasDocLen then some seg.docLen else none
        data := data }, i)) := by
  have hflag : ∀ flag : UInt8, variantSegLenMask &&& flag = 0 →
      hasFlag (seg.variant ||| form) flag = hasFlag seg.variant flag := fun flag h => hasFlag_or _ (hform flag h)
  unfold parse
  rw [hflag variantSegFlagHasSpecialParent rfl, hflag variantSegFlagIsSingleSeg rfl, hflag variantSegFlagIsFirst rfl,
    hflag variantSegFlagHasDocLen rfl, hflag variantSegFlagIsClosed rfl]
  dsimp only
  unfold Segment.fields varu64Write at hb ⊢
  simp only [List.append_assoc] at hb
  have hb₁ := hb
  rw [← List.append_assoc] at hb₁
  have hb₂ := hb₁
  rw [← List.append_assoc] at hb₂
  have hb₃ := hb₂
  rw [← List.append_assoc] at hb₃
  rw [readVar_write hseg.docNo hb hi, ok_bind]
  dsimp only
  rw [readDocLen_write hseg.docLen hb₁ (by rw [List.length_append, hi, varusizeWrite_length]), ok_bind]
  dsimp only
  rw [readParent_write hseg.parent hseg.older hb₂ (by simp only [List.length_append, hi, varusizeWrite_length]), ok_bind]
  dsimp only
  rw [readOff_write hseg.off hmade.first hb₃ (by simp only [List.length_append, hi, varusizeWrite_length]), ok_bind]
  dsimp only [List.length_append]
  simp only [List.length_append, varusizeWrite_length, add_assoc]
  rfl

/-! The three forms in which data is told from what follows. -/

lemma readData_isTerminator (hb : packet = a ++ data) (hi : i = a.length) :
    readData debug variantSegIsTerminator packet i = .ok (data, packet.length) := by
  have hslice : (slice packet i packet.length : Outcome RecvError _) = .ok data :=
    slice_mid (hb.trans (by rw [List.append_nil])) hi (by rw [hb, List.length_append])
  rw [readData, if_pos rfl, hslice, ok_bind]

lemma readData_hasLen (hb : packet = a ++ (varusizeWrite data.length ++ (data ++ c))) (hi : i = a.length)
    (hlen : RoundTrips data.length) (hp : packet.length < 2 ^ 64) :
    readData debug variantSegHasLen packet i = .ok (data, i + (varusizeLen data.length + data.length)) := by
  have hl : packet.length = i + varusizeLen data.length + data.length + c.length := by
    rw [hb, hi]
    simp only [List.length_append, varusizeWrite_length]
    omega
  have hmin : min (i + varusizeLen data.length + data.length) (2 ^ 64 - 1) = i + varusizeLen data.length + data.length := by
    omega
  have htake : (packet.take (i + varusizeLen data.length + data.length)).drop (i + varusizeLen data.length) = data := by
    have hhead : (a ++ varusizeWrite data.length).length = i + varusizeLen data.length := by
      rw [List.length_append, varusizeWrite_length, hi]
    rw [hb, ← List.append_assoc, ← hhead, List.take_length_add_append, List.drop_left, List.take_left]
  rw [readData, if_neg (by decide), if_pos rfl, readVar_write hlen hb hi, ok_bind]
  dsimp only
  rw [hmin, if_pos ⟨by omega, by omega⟩, htake, add_assoc]

lemma findTerminator_padding {n : ℕ} (hi : i ≤ n) {b : Bytes} {k : ℕ} (hb : b.length = n)
    (hp : packet = b ++ variantNullTerminator :: List.replicate k variantPadding) {j : ℕ} (hj : j ≤ k) :
    findTerminator packet i (n + j) = .ok n := by
  -- the padding holds no terminator
  induction j with
  | zero =>
    have hat : packet[n]? = some variantNullTerminator := by
      rw [hp, List.getElem?_append_right hb.le, hb, Nat.sub_self]
      rfl
    cases n with
    | zero => rw [findTerminator, if_neg (by omega), index_ok hat, ok_bind, if_pos rfl]
    | succ n => rw [add_zero, findTerminator, if_neg (by omega), index_ok hat, ok_bind, if_pos rfl]
  | succ j ih =>
    have hat : packet[n + j + 1]? = some variantPadding := by
      rw [hp, List.getElem?_append_right (by omega), hb, show n + j + 1 - n = j + 1 by omega, List.getElem?_cons_succ,
        List.getElem?_replicate, if_pos (by omega)]
    rw [← add_assoc, findTerminator, if_neg (by omega), index_ok hat, ok_bind, if_neg (by decide)]
    exact ih (by omega)

lemma readData_hasTerminator {k : ℕ}
    (hb : packet = a ++ (data ++ variantNullTerminator :: List.replicate k variantPadding)) (hi : i = a.length) :
    readData debug variantSegHasTerminator packet i = .ok (data, packet.length) := by
  have hl : packet.length = (a ++ data).length + k + 1 := by
    rw [hb]
    simp only [List.length_append, List.length_cons, List.length_replicate]
    omega
  have hfind : findTerminator packet i ((a ++ data).length + k) = .ok (a ++ data).length :=
    findTerminator_padding (by rw [List.length_append]; omega) rfl (by rw [hb, List.append_assoc]) le_rfl
  have hslice : (slice packet i (a ++ data).length : Outcome RecvError _) = .ok data :=
    slice_mid hb hi List.length_append
  rw [readData, if_neg (by decide), if_neg (by decide), if_neg (by simp), sub_ok (by omega), ok_bind, hl,
    Nat.add_sub_cancel, hfind, ok_bind, hslice, ok_bind]

end SegFrame

namespace Segment

variable {seg : Segment} {docNo cap : ℕ} {doc : SendDoc} {ε : Type} {P : ε → Prop}

/-- How the length of the data is told. -/
inductive Form
  | hasLen
  | isTerminator
  | hasTerminator (padding : ℕ)

def Form.code : Form → UInt8
  | hasLen => variantSegHasLen
  | isTerminator => variantSegIsTerminator
  | hasTerminator _ => variantSegHasTerminator

/-- The data of a segment as it stands behind the header. -/
def payload (seg : Segment) : Form → Bytes
  | .hasLen => varusizeWrite seg.data.length ++ seg.data
  | .isTerminator => seg.data
  | .hasTerminator padding => seg.data ++ variantNullTerminator :: List.replicate padding variantPadding

def frame (seg : Segment) (form : Form) : Bytes := (seg.variant ||| form.code) :: (seg.fields ++ seg.payload form)

lemma header_length (seg : Segment) : seg.header.length = 1 + varusizeLen seg.docNo +
    (if hasFlag seg.variant variantSegFlagHasDocLen then varusizeLen seg.docLen else 0) +
    (if hasFlag seg.variant variantSegFlagHasSpecialParent || hasFlag seg.variant variantSegFlagIsFirst then
      varusizeLen seg.docParentNo else 0) +
    (if hasFlag seg.variant variantSegFlagIsFirst then 0 else varusizeLen seg.off) := by
  simp only [header, varu64Write, List.length_append, List.length_singleton, apply_ite List.length, List.length_nil,
    varusizeWrite_length]

/-- The header is as long as it was taken to be, and the data fits behind it. -/
def Fits (seg : Segment) (cap : ℕ) : Prop := seg.headerLen = seg.header.length ∧ seg.headerLen + seg.data.length ≤ cap

/-- A variant that gets the flag for the document length if `b` holds has these flags. -/
def Flags (variant : UInt8) (parent first : Bool) : Prop := ∀ b, let v := variant ||| flagIf b variantSegFlagHasDocLen
  hasFlag v variantSegFlagHasDocLen = b ∧
    (hasFlag v variantSegFlagHasSpecialParent || hasFlag v variantSegFlagIsFirst) = parent ∧
    hasFlag v variantSegFlagIsFirst = first

lemma tryPart_fits {variant : UInt8} (parent first : Bool) {n : ℕ} (hlen : doc.data.length < 2 ^ 64)
    (hoff : doc.nextSegOff ≤ doc.data.length) (hv : Flags variant parent first)
    (hn : n = 1 + varusizeLen docNo + (if parent then varusizeLen doc.parentNo else 0) +
      if first then 0 else varusizeLen doc.nextSegOff) :
    Ends (fun _ => False) P (fun r => ∀ x ∈ r.toOption, x.1.Fits cap) (tryPart docNo doc variant n cap) := by
  obtain ⟨hd, hp, hf⟩ := hv (!doc.hasBeenAcked)
  obtain ⟨k, hk⟩ : ∃ k, k = n + if doc.hasBeenAcked then 0 else varusizeLen doc.data.length := ⟨_, rfl⟩
  unfold tryPart
  dsimp only
  rw [← hk]
  by_cases hroom : k + minSegDataLen > cap
  · rw [if_pos hroom]
    exact fun x hx => absurd hx (Option.not_mem_none x)
  · rw [if_neg hroom, sub_ok hoff, ok_bind, sub_ok (by omega), ok_bind, add_ok (by omega), ok_bind, slice_ok (by omega) (by omega),
      ok_bind]
    rintro x hx
    cases hx
    constructor
    · rw [header_length]
      dsimp only
      rw [hd, hp, hf, hk, hn]
      cases doc.hasBeenAcked
      · simp only [Bool.not_false, if_true, Bool.false_eq_true, if_false]
        omega
      · simp only [Bool.not_true, if_true, Bool.false_eq_true, if_false]
        omega
    · dsimp only
      rw [List.length_drop, List.length_take]
      omega

lemma tryNew_fits {isClosed : Bool} (hlen : doc.data.length < 2 ^ 64) :
    Ends (fun _ => False) P (fun r => ∀ x ∈ r.toOption, x.1.Fits cap) (tryNew docNo doc isClosed cap) := by
  unfold tryNew
  split
  · exact fun x hx => absurd hx (Option.not_mem_none x)
  rename_i hoff
  dsimp only
  split
  · rename_i hzero
    split
    · rename_i hroom
      rintro x hx
      cases hx
      have hall : ∀ isClosed special : Bool,
          let v := flagIf isClosed variantSegFlagIsClosed ||| variantSegFlagIsFirst |||
            flagIf special variantSegFlagHasSpecialParent ||| variantSegFlagIsSingleSeg;
          hasFlag v variantSegFlagHasDocLen = false ∧
            (hasFlag v variantSegFlagHasSpecialParent || hasFlag v variantSegFlagIsFirst) = true ∧
            hasFlag v variantSegFlagIsFirst = true := by decide
      obtain ⟨hd, hp, hf⟩ := hall isClosed doc.hasSpecialParent
      refine ⟨?_, hroom⟩
      rw [header_length]
      dsimp only
      rw [hd, hp, hf]
      rfl
    · apply tryPart_fits true true hlen (by omega)
      · generalize doc.hasSpecialParent = special
        revert isClosed special
        unfold Flags
        decide
      · rfl
  · apply tryPart_fits (!doc.hasBeenAcked && doc.hasSpecialParent) false hlen (by omega)
    · generalize doc.hasSpecialParent = special
      generalize doc.hasBeenAcked = acked
      revert isClosed special acked
      unfold Flags
      decide
    · simp only [Bool.false_eq_true, if_false]
      rfl

lemma tryNew_eq (docNo : ℕ) (isClosed : Bool) (cap : ℕ) (hlen : doc.data.length < 2 ^ 64) :
    ∃ r, (tryNew docNo doc isClosed cap : Outcome ε _) = .ok r ∧ ∀ x ∈ r.toOption, x.1.WellMade ∧ x.1.Fits cap := by
  have hfits : Ends (fun _ => False) (fun _ => False) _ (tryNew docNo doc isClosed cap : Outcome ε _) := tryNew_fits hlen
  have hmade : Ends (fun _ => True) (fun _ => True) _ (tryNew docNo doc isClosed cap : Outcome ε _) :=
    ends_tryNew fun _ _ => trivial
  rcases hnew : (tryNew docNo doc isClosed cap : Outcome ε _) with (e | e) | r
  · exact absurd (hfits.panic hnew) id
  · exact absurd (hfits.err hnew) id
  · exact ⟨r, rfl, fun x hx => ⟨hmade.ok hnew x hx, hfits.ok hnew x hx⟩⟩

variable {form : Form} {packet a c : Bytes} {debug : Bool}

lemma Form.code_eq (form : Form) : form.code ∈ [(1 : UInt8), 2, 3] := by
  cases form <;> exact of_decide_eq_true rfl

lemma Form.code_and_mask (form : Form) : form.code &&& variantSegLenMask = form.code :=
  (by decide +kernel : ∀ code ∈ [(1 : UInt8), 2, 3], code &&& variantSegLenMask = code) _ form.code_eq

lemma Form.code_and (form : Form) {flag : UInt8} (h : variantSegLenMask &&& flag = 0) : form.code &&& flag = 0 := by
  rw [← form.code_and_mask, UInt8.and_assoc, h, UInt8.and_zero]

lemma WellMade.code (h : seg.WellMade) (form : Form) : (seg.variant ||| form.code) &&& variantSegLenMask = form.code := by
  rw [or_and_distrib, h.form, form.code_and_mask, UInt8.zero_or]

lemma WellMade.range (h : seg.WellMade) (form : Form) : seg.variant ||| form.code ≠ variantNullTerminator ∧
    variantSegMin ≤ seg.variant ||| form.code ∧ seg.variant ||| form.code ≤ variantSegMax := by
  have hall : ∀ v : UInt8, v ≤ 0x7C → ∀ code ∈ [(1 : UInt8), 2, 3],
      v ||| code ≠ variantNullTerminator ∧ variantSegMin ≤ v ||| code ∧ v ||| code ≤ variantSegMax := by decide +kernel
  exact hall _ h.small _ form.code_eq

/-- Data in the form with a length may be followed by more, in the other forms it is the end of the packet. -/
lemma readData_payload (hlen : form = .hasLen → RoundTrips seg.data.length) (hc : form ≠ .hasLen → c = [])
    (hb : packet = a ++ (seg.payload form ++ c)) (hp : packet.length < 2 ^ 64) :
    SegFrame.readData debug form.code packet a.length = .ok (seg.data, a.length + (seg.payload form).length) := by
  cases form with
  | hasLen =>
    rw [payload, List.append_assoc] at hb
    rw [Form.code, SegFrame.readData_hasLen hb rfl (hlen rfl) hp, payload, List.length_append, varusizeWrite_length]
  | isTerminator =>
    rw [hc (by simp), List.append_nil] at hb
    rw [Form.code, SegFrame.readData_isTerminator hb rfl, hb, List.length_append]
    rfl
  | hasTerminator padding =>
    rw [hc (by simp), List.append_nil] at hb
    rw [Form.code, SegFrame.readData_hasTerminator hb rfl, hb, List.length_append]

lemma parse_frame (hseg : seg.Encodable) (hmade : seg.WellMade) (hlen : form = .hasLen → RoundTrips seg.data.length)
    (hc : form ≠ .hasLen → c = []) (hb : packet = a ++ (seg.frame form ++ c)) (hp : packet.length < 2 ^ 64) :
    SegFrame.parse debug (seg.variant ||| form.code) packet (a.length + 1) =
      .ok (seg.received, a.length + (seg.frame form).length) := by
  have hfields : packet = (a ++ [seg.variant ||| form.code]) ++ (seg.fields ++ (seg.payload form ++ c)) := by
    rw [hb, frame]
    simp only [List.cons_append, List.append_assoc, List.nil_append]
  have hpayload : packet = (a ++ [seg.variant ||| form.code] ++ seg.fields) ++ (seg.payload form ++ c) := by
    rw [hfields, List.append_assoc _ seg.fields]
  have hlength : (a ++ [seg.variant ||| form.code] ++ seg.fields).length = a.length + 1 + seg.fields.length := by
    simp only [List.length_append, List.length_singleton]
  rw [SegFrame.parse_fields hseg hmade (fun flag h => form.code_and h) hfields (by simp), hmade.code, ← hlength,
    readData_payload hlen hc hpayload hp, ok_bind, hlength]
  dsimp only
  congr 2
  · rw [received]
    congr 1
    by_cases hs : hasFlag seg.variant variantSegFlagIsSingleSeg
    · rw [if_pos hs, hs, Bool.or_true, if_pos rfl, hmade.single hs]
      split <;> rfl
    · rw [if_neg hs, eq_false_of_ne_true hs, Bool.or_false]
  · simp only [frame, List.length_cons, List.length_append]
    omega

end Segment

end Pqsnet.Session
