import Pqsnet.Session.Segmentation
import Pqsnet.Session.SegmentPackets

/-! Segments that are sent again, and are cut in two where a packet has no room for them. -/

namespace Pqsnet.Session

open Checked Outcome

namespace Segment

variable {seg a r : Segment} {cap : ℕ} {ε : Type}

/-- The header is as long as it is taken to be. -/
def Exact (seg : Segment) : Prop := seg.headerLen = seg.header.length

/-- A segment that is not the first has its offset in its header, and a later offset may take more bytes. -/
def SameWidth (seg r : Segment) : Prop :=
  hasFlag seg.variant variantSegFlagIsFirst ∨ varusizeLen r.off = varusizeLen seg.off

/-- `seg` is cut into `a` and `r`, and nothing that the receiver has to know is lost. -/
structure Split (seg a r : Segment) : Prop extends Cut seg a r where
  docLen : a.docLen = seg.docLen ∧ r.docLen = seg.docLen
  parent : a.docParentNo = seg.docParentNo ∧ r.docParentNo = seg.docParentNo
  special : hasFlag a.variant variantSegFlagHasSpecialParent = hasFlag seg.variant variantSegFlagHasSpecialParent ∧
    hasFlag r.variant variantSegFlagHasSpecialParent = hasFlag seg.variant variantSegFlagHasSpecialParent
  closed : hasFlag a.variant variantSegFlagIsClosed = hasFlag seg.variant variantSegFlagIsClosed ∧
    hasFlag r.variant variantSegFlagIsClosed = hasFlag seg.variant variantSegFlagIsClosed
  told : hasFlag seg.variant variantSegFlagIsSingleSeg →
    hasFlag a.variant variantSegFlagHasDocLen ∧ hasFlag r.variant variantSegFlagHasDocLen
  rest_first : hasFlag r.variant variantSegFlagIsFirst = false
  rest_single : hasFlag r.variant variantSegFlagIsSingleSeg = false
  rest_nonempty : r.data ≠ []

lemma cutHeader_fst (seg : Segment) :
    hasFlag seg.cutHeader.1 variantSegFlagIsFirst = hasFlag seg.variant variantSegFlagIsFirst ∧
    hasFlag seg.cutHeader.1 variantSegFlagHasSpecialParent = hasFlag seg.variant variantSegFlagHasSpecialParent ∧
    hasFlag seg.cutHeader.1 variantSegFlagIsClosed = hasFlag seg.variant variantSegFlagIsClosed ∧
    hasFlag seg.cutHeader.1 variantSegFlagHasDocLen =
      (hasFlag seg.variant variantSegFlagHasDocLen || hasFlag seg.variant variantSegFlagIsSingleSeg) ∧
    hasFlag seg.cutHeader.1 variantSegFlagIsSingleSeg = false := by
  have hall : ∀ (v : UInt8) (n m : ℕ),
      let w := (if hasFlag v variantSegFlagIsSingleSeg then
        let variant := v &&& ~~~variantSegFlagIsSingleSeg
        if hasFlag variant variantSegFlagHasDocLen then (variant, n) else (variant ||| variantSegFlagHasDocLen, m)
        else (v, n)).1
      hasFlag w variantSegFlagIsFirst = hasFlag v variantSegFlagIsFirst ∧
      hasFlag w variantSegFlagHasSpecialParent = hasFlag v variantSegFlagHasSpecialParent ∧
      hasFlag w variantSegFlagIsClosed = hasFlag v variantSegFlagIsClosed ∧
      hasFlag w variantSegFlagHasDocLen = (hasFlag v variantSegFlagHasDocLen || hasFlag v variantSegFlagIsSingleSeg) ∧
      hasFlag w variantSegFlagIsSingleSeg = false := by
    intro v n m
    simp only [apply_ite Prod.fst]
    revert v
    decide +kernel
  exact hall seg.variant _ _

lemma cutHeader_snd (seg : Segment) : seg.cutHeader.2 = seg.headerLen +
    if hasFlag seg.variant variantSegFlagIsSingleSeg && !hasFlag seg.variant variantSegFlagHasDocLen then varusizeLen seg.docLen else 0 := by
  have hall : ∀ v : UInt8, hasFlag (v &&& ~~~variantSegFlagIsSingleSeg) variantSegFlagHasDocLen = hasFlag v variantSegFlagHasDocLen := by
    decide +kernel
  rw [cutHeader]
  dsimp only
  rw [hall]
  cases hasFlag seg.variant variantSegFlagIsSingleSeg <;> cases hasFlag seg.variant variantSegFlagHasDocLen <;> rfl

lemma le_cutHeader (seg : Segment) : seg.headerLen ≤ seg.cutHeader.2 := by
  rw [cutHeader_snd]
  exact Nat.le_add_right _ _

/-- The second part is not the first of its document, so it has an offset, and a parent only if that is a special one. -/
lemma restHeader_eq {variant : UInt8} {headerLen docParentNo newOff : ℕ}
    (h : hasFlag variant variantSegFlagIsFirst → varusizeLen docParentNo ≤ headerLen) :
    (restHeader variant headerLen docParentNo newOff : Outcome ε _) = .ok (variant &&& ~~~variantSegFlagIsFirst,
      if hasFlag variant variantSegFlagIsFirst then
        headerLen + varusizeLen newOff - if hasFlag variant variantSegFlagHasSpecialParent then 0 else varusizeLen docParentNo
      else headerLen) := by
  have hall : ∀ v : UInt8, hasFlag v variantSegFlagIsFirst = false → v &&& ~~~variantSegFlagIsFirst = v := by decide +kernel
  rw [restHeader]
  cases hfirst : hasFlag variant variantSegFlagIsFirst with
  | false => rw [if_neg Bool.false_ne_true, if_neg Bool.false_ne_true, hall _ hfirst]
  | true =>
    have hle := h hfirst
    cases hasFlag variant variantSegFlagHasSpecialParent with
    | false => rw [if_pos rfl, if_pos rfl, if_neg Bool.false_ne_true, if_neg Bool.false_ne_true, varu64Len, sub_ok (by omega), ok_bind]
    | true => rw [if_pos rfl, if_pos rfl, if_pos rfl, if_pos rfl, Nat.sub_zero]

lemma rest_flags : ∀ v : UInt8, hasFlag (v &&& ~~~variantSegFlagIsFirst) variantSegFlagIsFirst = false ∧
    hasFlag (v &&& ~~~variantSegFlagIsFirst) variantSegFlagHasSpecialParent = hasFlag v variantSegFlagHasSpecialParent ∧
    hasFlag (v &&& ~~~variantSegFlagIsFirst) variantSegFlagIsClosed = hasFlag v variantSegFlagIsClosed ∧
    hasFlag (v &&& ~~~variantSegFlagIsFirst) variantSegFlagHasDocLen = hasFlag v variantSegFlagHasDocLen ∧
    hasFlag (v &&& ~~~variantSegFlagIsFirst) variantSegFlagIsSingleSeg = hasFlag v variantSegFlagIsSingleSeg := by
  decide +kernel

/-- The header of a segment that is not the first of its document. -/
def restLength (seg : Segment) (off : ℕ) : ℕ := 1 + varusizeLen seg.docNo +
  (if hasFlag seg.variant variantSegFlagHasDocLen then varusizeLen seg.docLen else 0) +
  (if hasFlag seg.variant variantSegFlagHasSpecialParent then varusizeLen seg.docParentNo else 0) + varusizeLen off

lemma header_length_rest (seg : Segment) (n off : ℕ) (data : Bytes) :
    ({ seg with variant := seg.variant &&& ~~~variantSegFlagIsFirst, headerLen := n, off := off, data := data } : Segment).header.length =
      seg.restLength off := by
  obtain ⟨hfirst, hspecial, -, hlen, -⟩ := rest_flags seg.variant
  rw [header_length]
  dsimp only
  rw [hfirst, hspecial, hlen, Bool.or_false, if_neg Bool.false_ne_true, restLength]

/-- What the length of that header is taken to be. -/
def restHeaderLen (seg : Segment) (off : ℕ) : ℕ :=
  if hasFlag seg.variant variantSegFlagIsFirst then
    seg.headerLen + varusizeLen off - if hasFlag seg.variant variantSegFlagHasSpecialParent then 0 else varusizeLen seg.docParentNo
  else seg.headerLen

/-- A segment under the header of its first part. -/
def head (seg : Segment) : Segment := { seg with variant := seg.cutHeader.1, headerLen := seg.cutHeader.2 }

/-- The first `n` bytes of a segment. -/
def front (seg : Segment) (n : ℕ) : Segment := { seg.head with data := seg.data.take n }

def back (seg : Segment) (n : ℕ) : Segment :=
  { seg.head with
    variant := seg.cutHeader.1 &&& ~~~variantSegFlagIsFirst, headerLen := seg.head.restHeaderLen (seg.off + n), off := seg.off + n,
    data := seg.data.drop n }

lemma Exact.head (h : seg.Exact) : seg.head.Exact := by
  obtain ⟨hfirst, hspecial, -, hlen, -⟩ := seg.cutHeader_fst
  rw [Exact, Segment.head, header_length]
  dsimp only
  rw [cutHeader_snd, h, header_length, hfirst, hspecial, hlen]
  cases hasFlag seg.variant variantSegFlagIsSingleSeg <;> cases hasFlag seg.variant variantSegFlagHasDocLen <;>
    simp <;> omega

lemma Exact.front (h : seg.Exact) (n : ℕ) : (seg.front n).Exact := h.head

/-- Where the offset takes another number of bytes than that of the segment, that is not taken into account. -/
lemma Exact.restHeaderLen_add (h : seg.Exact) (off : ℕ) :
    seg.restHeaderLen off + (if hasFlag seg.variant variantSegFlagIsFirst then 0 else varusizeLen off) =
    seg.restLength off + if hasFlag seg.variant variantSegFlagIsFirst then 0 else varusizeLen seg.off := by
  rw [restHeaderLen, h, header_length, restLength]
  cases hasFlag seg.variant variantSegFlagIsFirst <;> cases hasFlag seg.variant variantSegFlagHasSpecialParent <;>
    simp <;> omega

lemma Exact.back_iff (h : seg.Exact) (n : ℕ) : (seg.back n).Exact ↔ seg.SameWidth (seg.back n) := by
  have hsum := h.head.restHeaderLen_add (seg.off + n)
  have hlength : (seg.back n).header.length = seg.head.restLength (seg.off + n) := header_length_rest seg.head _ _ _
  have hflag : hasFlag seg.head.variant variantSegFlagIsFirst = hasFlag seg.variant variantSegFlagIsFirst := seg.cutHeader_fst.1
  rw [hflag] at hsum
  rw [Exact, SameWidth, hlength]
  change seg.head.restHeaderLen (seg.off + n) = _ ↔ _ ∨ varusizeLen (seg.off + n) = varusizeLen seg.off
  change _ = _ + if _ then 0 else varusizeLen seg.off at hsum
  cases hfirst : hasFlag seg.variant variantSegFlagIsFirst with
  | true =>
    rw [hfirst, if_pos rfl, if_pos rfl] at hsum
    exact iff_of_true hsum (.inl rfl)
  | false =>
    rw [hfirst, if_neg Bool.false_ne_true, if_neg Bool.false_ne_true] at hsum
    constructor
    · exact fun heq => .inr (by omega)
    · rintro (hf | heq)
      · cases hf
      · omega

lemma split_front_back {n : ℕ} (hpos : 0 < n) (hlt : n < seg.data.length) : Split seg (seg.front n) (seg.back n) := by
  obtain ⟨-, hspecial, hclosed, hlen, hsingle⟩ := seg.cutHeader_fst
  obtain ⟨hfirst', hspecial', hclosed', hlen', hsingle'⟩ := rest_flags seg.cutHeader.1
  have hlength : (seg.data.take n).length = n := by rw [List.length_take, min_eq_left hlt.le]
  refine ⟨⟨rfl, rfl, rfl, rfl, rfl, ?_, (List.take_append_drop n _).symm, ?_⟩, ⟨rfl, rfl⟩, ⟨rfl, rfl⟩,
    ⟨hspecial, hspecial'.trans hspecial⟩, ⟨hclosed, hclosed'.trans hclosed⟩, fun h => ?_, hfirst', hsingle'.trans hsingle, ?_⟩
  · exact congrArg (seg.off + ·) hlength.symm
  · exact hlength.symm ▸ hpos
  · rw [h, Bool.or_true] at hlen
    exact ⟨hlen, hlen'.trans hlen⟩
  · rw [ne_eq, ← List.length_eq_zero_iff]
    change (seg.data.drop n).length ≠ 0
    rw [List.length_drop]
    omega

lemma cut_eq (hcap : seg.headerLen + minSegDataLen ≤ cap) (hlong : seg.headerLen + seg.data.length > cap)
    (hparent : hasFlag seg.variant variantSegFlagIsFirst → varusizeLen seg.docParentNo ≤ seg.headerLen)
    (hoff : seg.off + seg.data.length < 2 ^ 64) :
    (seg.cut cap : Outcome ε _) = .ok (if hasFlag seg.variant variantSegFlagIsSingleSeg ∧ seg.cutHeader.2 + minSegDataLen > cap then none
      else some (seg.front (cap - seg.cutHeader.2), seg.back (cap - seg.cutHeader.2))) := by
  rw [cut]
  dsimp only
  by_cases hno : hasFlag seg.variant variantSegFlagIsSingleSeg ∧ seg.cutHeader.2 + minSegDataLen > cap
  · rw [if_pos hno, if_pos hno]
  have hroom := cutHeader_le hcap hno
  have hle := seg.le_cutHeader
  have hparent' : hasFlag seg.cutHeader.1 variantSegFlagIsFirst → varusizeLen seg.docParentNo ≤ seg.cutHeader.2 := by
    rw [seg.cutHeader_fst.1]
    exact fun h => (hparent h).trans hle
  rw [if_neg hno, if_neg hno, sub_ok (by omega), ok_bind, add_ok (by omega), ok_bind, restHeader_eq hparent', ok_bind, splitOff,
    if_pos (by omega), ok_bind]
  rfl

lemma Exact.parent_le (h : seg.Exact) (hfirst : hasFlag seg.variant variantSegFlagIsFirst) :
    varusizeLen seg.docParentNo ≤ seg.headerLen := by
  rw [h, header_length, hfirst, Bool.or_true, if_pos rfl]
  omega

lemma frame_length (seg : Segment) (form : Form) : (seg.frame form).length = seg.header.length + (seg.payload form).length := by
  rw [seg.header_eq, frame, List.length_cons, List.length_append, List.length_cons]
  omega

end Segment

namespace PacketBuilder

variable {p q : PacketBuilder} {seg a : Segment} {cap : ℕ} {ε : Type}

lemma isFull_eq (hp : p.Roomy) : (p.isFull : Outcome ε _) = .ok (decide (p.mtu - p.buf.length < minFrameAppendLen)) := by
  rw [isFull, remainingCap, sub_ok hp.room, ok_bind]

/-- What becomes of a segment: the packet refuses it and is as it was, or has a frame with all of it, or is filled up by a frame
with a part of it. -/
inductive Lossless (p : PacketBuilder) (seg : Segment) : Bool × Option Segment × PacketBuilder → Prop
  | refused (h : seg.cutHeader.2 + minSegDataLen > p.mtu - p.buf.length) : Lossless p seg (true, some seg, p)
  | whole {form : Segment.Form} {q : PacketBuilder} {full : Bool} (h : Placed p seg form q) (hframe : Appended p [.seg seg] q) :
      Lossless p seg (full, none, q)
  | part {a r : Segment} {q : PacketBuilder} (hsplit : Segment.Split seg a r) (hmin : minSegDataLen ≤ a.data.length)
      (h : Placed p a .isTerminator q) (hframe : Appended p [.seg a] q) (hfull : q.buf.length = q.mtu) : Lossless p seg (true, some r, q)

lemma room_of_not_full (hp : p.Roomy) (h : decide (p.mtu - p.buf.length < minFrameAppendLen) = false) :
    p.buf.length + minFrameAppendLen ≤ p.mtu := by
  have hroom := hp.room
  rw [decide_eq_false_iff_not] at h
  omega

lemma appendSeg_fits (hp : p.Roomy) (hcap : p.buf.length + cap = p.mtu) (hfit : seg.header.length + seg.data.length ≤ cap) :
    ∃ (full : Bool) (q : PacketBuilder) (form : Segment.Form), (p.appendSeg seg : Outcome ε _) = .ok (full, q) ∧ Placed p seg form q ∧
      Appended p [.seg seg] q ∧ Grown p full q := by
  obtain ⟨full, q, form, happ, hplaced, hq, -⟩ := appendSeg_placed (ε := ε) hp hcap hfit
  have hends : Ends (fun _ => True) (fun _ => True) _ (p.appendSeg seg : Outcome ε _) := ends_appendSeg (fun _ _ => trivial) seg
  exact ⟨full, q, form, happ, hplaced, hends.ok happ, hq⟩

lemma appendSeg_fills (hp : p.Roomy) (hcap : p.buf.length + cap = p.mtu) (hfit : seg.header.length + seg.data.length = cap) :
    ∃ (full : Bool) (q : PacketBuilder), (p.appendSeg seg : Outcome ε _) = .ok (full, q) ∧ Placed p seg .isTerminator q ∧
      Appended p [.seg seg] q ∧ Grown p full q ∧ q.buf.length = q.mtu := by
  obtain ⟨full, q, form, happ, hplaced, hframe, hq⟩ := appendSeg_fits (ε := ε) hp hcap hfit.le
  have hlength : q.buf.length = p.buf.length + (seg.header.length + (seg.payload form).length) := by
    rw [hplaced.buf, List.length_append, seg.frame_length]
  have hroom := hplaced.mtu ▸ hq.roomy.room
  cases form with
  | isTerminator =>
    refine ⟨full, q, happ, hplaced, hframe, hq, ?_⟩
    rw [hlength, hplaced.mtu, ← hcap, ← hfit]
    rfl
  | hasLen =>
    have hlen := hplaced.len rfl
    have hpos := varusizeLen_pos seg.data.length
    omega
  | hasTerminator padding =>
    simp only [Segment.payload, List.length_append, List.length_cons] at hlength
    omega

/-- The call returns. Where the segment is cut, both parts are exact if the offset of the second one takes as many bytes. -/
lemma tryAppendSeg_spec (hp : p.Roomy) (hexact : seg.Exact) (hoff : seg.off + seg.data.length < 2 ^ 64) :
    ∃ full o q, (p.tryAppendSeg seg : Outcome ε _) = .ok (full, o, q) ∧ Lossless p seg (full, o, q) ∧ Grown p full q ∧
      (∀ r, o = some r → (r.Exact ↔ seg.SameWidth r)) ∧
      ∀ a, q.elicitingFrames = p.elicitingFrames ++ [.seg a] → a.Exact := by
  have hcap : p.buf.length + (p.mtu - p.buf.length) = p.mtu := Nat.add_sub_cancel' hp.room
  have hself : ∀ r, some seg = some r → (r.Exact ↔ seg.SameWidth r) := by
    rintro r ⟨rfl⟩
    exact iff_of_true hexact (.inr rfl)
  have hsame : ∀ a, p.elicitingFrames = p.elicitingFrames ++ [.seg a] → a.Exact := by
    intro a ha
    exact absurd (List.self_eq_append_right.mp ha) (List.cons_ne_nil _ _)
  have hpushed : ∀ {q : PacketBuilder} {b : Segment}, Appended p [.seg b] q → b.Exact →
      ∀ a, q.elicitingFrames = p.elicitingFrames ++ [.seg a] → a.Exact := by
    intro q b happ hb a ha
    rw [happ.frames] at ha
    cases List.append_cancel_left ha
    exact hb
  rw [tryAppendSeg, remainingCap, sub_ok hp.room, ok_bind]
  have hrefused : seg.cutHeader.2 + minSegDataLen > p.mtu - p.buf.length → Lossless p seg (true, some seg, p) := .refused
  generalize p.mtu - p.buf.length = cap at hcap hrefused ⊢
  have hle := seg.le_cutHeader
  by_cases hroom : seg.headerLen + minSegDataLen > cap
  · rw [if_pos hroom]
    exact ⟨_, _, _, rfl, hrefused (by omega), ⟨hp, rfl, fun h => absurd h (by decide)⟩, hself, hsame⟩
  rw [if_neg hroom]
  by_cases hlong : seg.headerLen + seg.data.length > cap
  · rw [if_pos hlong, Segment.cut_eq (not_lt.mp hroom) hlong hexact.parent_le hoff, ok_bind]
    by_cases hno : hasFlag seg.variant variantSegFlagIsSingleSeg ∧ seg.cutHeader.2 + minSegDataLen > cap
    · rw [if_pos hno]
      exact ⟨_, _, _, rfl, hrefused hno.2, ⟨hp, rfl, fun h => absurd h (by decide)⟩, hself, hsame⟩
    rw [if_neg hno]
    have hfront := Segment.cutHeader_le (not_lt.mp hroom) hno
    have hpos : 0 < cap - seg.cutHeader.2 := by
      simp only [minSegDataLen] at hfront
      omega
    have hsplit := Segment.split_front_back hpos (show cap - seg.cutHeader.2 < seg.data.length by omega)
    have hlength : (seg.front (cap - seg.cutHeader.2)).data.length = cap - seg.cutHeader.2 :=
      (List.length_take ..).trans (min_eq_left (by omega))
    have hfit : (seg.front (cap - seg.cutHeader.2)).header.length + (seg.front (cap - seg.cutHeader.2)).data.length = cap := by
      rw [← hexact.front, hlength]
      change seg.cutHeader.2 + _ = cap
      omega
    obtain ⟨full, q, happ, hplaced, hframe, hq, hfull⟩ := appendSeg_fills (ε := ε) hp hcap hfit
    have htrue : decide (q.mtu - q.buf.length < minFrameAppendLen) = true := by
      rw [hfull, Nat.sub_self]
      rfl
    dsimp only
    rw [happ, ok_bind]
    dsimp only
    rw [isFull_eq hq.roomy, ok_bind, htrue]
    refine ⟨_, _, _, rfl, .part hsplit (by omega) hplaced hframe hfull,
      ⟨hq.roomy, hplaced.mtu, fun h => absurd h (by decide)⟩, ?_, hpushed hframe (hexact.front _)⟩
    rintro r ⟨rfl⟩
    exact hexact.back_iff _
  · rw [if_neg hlong]
    obtain ⟨full, q, form, happ, hplaced, hframe, hq⟩ := appendSeg_fits (ε := ε) hp hcap (hexact ▸ not_lt.mp hlong)
    rw [happ, ok_bind]
    dsimp only
    rw [isFull_eq hq.roomy, ok_bind]
    exact ⟨_, _, _, rfl, .whole hplaced hframe, ⟨hq.roomy, hplaced.mtu, room_of_not_full hq.roomy⟩, fun _ h => absurd h (Option.some_ne_none _).symm, hpushed hframe hexact⟩

lemma Lossless.rest_end {full : Bool} {r : Segment} (h : Lossless p seg (full, some r, q)) :
    r.off + r.data.length = seg.off + seg.data.length := by
  cases h with
  | refused _ => rfl
  | part hsplit _ _ _ _ =>
    rw [hsplit.rest_off, hsplit.data, List.length_append]
    omega

lemma Lossless.sent_end {full : Bool} {o : Option Segment} (h : Lossless p seg (full, o, q))
    (hframe : q.elicitingFrames = p.elicitingFrames ++ [.seg a]) : a.off + a.data.length ≤ seg.off + seg.data.length := by
  cases h with
  | refused _ => exact absurd (List.self_eq_append_right.mp hframe) (List.cons_ne_nil _ _)
  | whole _ happ =>
    rw [happ.frames] at hframe
    cases List.append_cancel_left hframe
    exact le_rfl
  | part hsplit _ _ happ _ =>
    rw [happ.frames] at hframe
    cases List.append_cancel_left hframe
    rw [hsplit.first_off, hsplit.data, List.length_append]
    omega

end PacketBuilder

namespace Segment

variable {seg : Segment} {C : Segment → Segment → Prop}

/-- Wherever a segment is cut, and its rest is cut again, the offsets take the same number of bytes. -/
structure Steady (seg : Segment) : Prop where
  exact : seg.Exact
  range : seg.off + seg.data.length < 2 ^ 64
  width : ∀ n m, (n = 0 ∧ hasFlag seg.variant variantSegFlagIsFirst = false ∨ minSegDataLen ≤ n) → n + minSegDataLen ≤ m →
    m < seg.data.length → varusizeLen (seg.off + m) = varusizeLen (seg.off + n)

lemma Split.rest_length {a r : Segment} (h : Split seg a r) : a.data.length + r.data.length = seg.data.length := by
  rw [h.data, List.length_append]

lemma Steady.sameWidth {a r : Segment} (h : seg.Steady) (hsplit : Split seg a r) (hmin : minSegDataLen ≤ a.data.length) : seg.SameWidth r := by
  have hlength := hsplit.rest_length
  have hpos := List.length_pos_of_ne_nil hsplit.rest_nonempty
  cases hfirst : hasFlag seg.variant variantSegFlagIsFirst with
  | true => exact .inl hfirst
  | false =>
    have hwidth := h.width 0 a.data.length (.inl ⟨rfl, hfirst⟩) (by omega) (by omega)
    rw [Nat.add_zero] at hwidth
    exact .inr (hsplit.rest_off ▸ hwidth)

lemma Steady.rest {a r : Segment} (h : seg.Steady) (hsplit : Split seg a r) (hmin : minSegDataLen ≤ a.data.length)
    (hexact : r.Exact ↔ seg.SameWidth r) : r.Steady := by
  have hlength := hsplit.rest_length
  have hrange := h.range
  refine ⟨hexact.mpr (h.sameWidth hsplit hmin), by rw [hsplit.rest_off]; omega, fun n m _ hnm hm => ?_⟩
  rw [hsplit.rest_off, Nat.add_assoc, Nat.add_assoc]
  exact h.width _ _ (.inr (by omega)) (by omega) (by omega)

/-- The segments that come from documents by cutting segments where packets are full, if each cut meets `C`. -/
inductive Resent (C : Segment → Segment → Prop) : Segment → Prop
  | new {docNo cap : ℕ} {doc doc' : SendDoc} {isClosed : Bool} {seg : Segment} (hlen : doc.data.length < 2 ^ 64)
      (h : (tryNew docNo doc isClosed cap : Outcome Empty _) = .ok (.ok (seg, doc'))) : Resent C seg
  | rest {seg r : Segment} {p q : PacketBuilder} {full : Bool} (h : Resent C seg) (hp : p.Roomy)
      (htry : (p.tryAppendSeg seg : Outcome Empty _) = .ok (full, some r, q)) (hC : C seg r) : Resent C r
  | sent {seg a : Segment} {p q : PacketBuilder} {full : Bool} {o : Option Segment} (h : Resent C seg) (hp : p.Roomy)
      (htry : (p.tryAppendSeg seg : Outcome Empty _) = .ok (full, o, q)) (hframe : q.elicitingFrames = p.elicitingFrames ++ [.seg a]) :
      Resent C a

lemma Resent.exact (h : Resent SameWidth seg) : seg.Exact ∧ seg.off + seg.data.length < 2 ^ 64 := by
  induction h with
  | new hlen h =>
    have hnext := tryNew_next hlen h
    refine ⟨hnext.fits.1, ?_⟩
    rw [hnext.off]
    exact hnext.bound.trans_lt hlen
  | rest _ hp htry hC ih =>
    obtain ⟨_, _, _, htry', hloss, -, hrest, -⟩ := PacketBuilder.tryAppendSeg_spec (ε := Empty) hp ih.1 ih.2
    cases htry.symm.trans htry'
    exact ⟨(hrest _ rfl).mpr hC, hloss.rest_end ▸ ih.2⟩
  | sent _ hp htry hframe ih =>
    obtain ⟨_, _, _, htry', hloss, -, -, hsent⟩ := PacketBuilder.tryAppendSeg_spec (ε := Empty) hp ih.1 ih.2
    cases htry.symm.trans htry'
    exact ⟨hsent _ hframe, (hloss.sent_end hframe).trans_lt ih.2⟩

end Segment

end Pqsnet.Session
