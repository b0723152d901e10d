import Pqsnet.Checked.Ends
import Pqsnet.Session.AckCodec
import Pqsnet.Session.PacketBuilder

/-! What appending to a packet does: its frames stand in its buffer, and a segment that is cut in two
loses nothing. -/

namespace Pqsnet.Session

open Checked Outcome

namespace ElicitingFrame

def label : ElicitingFrame → Option ℕ
  | seg s => s.label
  | control _ _ label => label

/-- The bytes by which a frame is present in a packet. -/
def written : ElicitingFrame → Bytes
  | seg s => s.data
  | control variant docNo _ => variant :: varu64Write docNo

end ElicitingFrame

namespace PacketBuilder

/-- A packet has a header, and the bytes of all its frames. -/
structure Sound (p : PacketBuilder) : Prop where
  nonempty : p.buf ≠ []
  written : ∀ f ∈ p.elicitingFrames, f.written <:+: p.buf

lemma sound_new (mtu : ℕ) : (new mtu).Sound := ⟨List.cons_ne_nil _ _, fun _ hf => absurd hf List.not_mem_nil⟩

/-- What frames that are sent again until they are acknowledged do not change in a packet. -/
def fixed (p : PacketBuilder) : ℕ × Option (Bool × UInt32) × List (Bool × List UInt32) := (p.mtu, p.socketBinding, p.acks)

/-- `q` is `p` with the frames `fs` behind it. -/
structure Appended (p : PacketBuilder) (fs : List ElicitingFrame) (q : PacketBuilder) : Prop where
  frames : q.elicitingFrames = p.elicitingFrames ++ fs
  fixed : q.fixed = p.fixed
  buf : p.buf <+: q.buf
  written : ∀ f ∈ fs, f.written <:+: q.buf

variable {p q : PacketBuilder} {fs : List ElicitingFrame}

lemma Appended.refl (p : PacketBuilder) : Appended p [] p :=
  ⟨(List.append_nil _).symm, rfl, List.prefix_refl _, fun _ hf => absurd hf List.not_mem_nil⟩

lemma Appended.sound (h : Appended p fs q) (hp : p.Sound) : q.Sound := by
  refine ⟨fun hq => hp.nonempty ?_, fun f hf => ?_⟩
  · exact List.prefix_nil.mp (hq ▸ h.buf)
  · rw [h.frames, List.mem_append] at hf
    rcases hf with hf | hf
    · exact (hp.written f hf).trans h.buf.isInfix
    · exact h.written f hf

/-- Holds of an empty packet, and goes on to hold when frames are appended. -/
structure Stable (I : PacketBuilder → Prop) : Prop where
  new : ∀ mtu, I (new mtu)
  append : ∀ p fs q, Appended p fs q → I p → I q

lemma stable_sound : Stable Sound := ⟨sound_new, fun _ _ _ h hp => h.sound hp⟩

/-- The binding and the acks of a packet that has acks. -/
def ackRecord (p : PacketBuilder) : Option (Option (Bool × UInt32) × List (Bool × List UInt32)) :=
  match p.acks with
  | [] => none
  | a :: as => some (p.socketBinding, a :: as)

lemma ackRecord_new (mtu : ℕ) : (new mtu).ackRecord = none := rfl

lemma Appended.ackRecord (h : Appended p fs q) : q.ackRecord = p.ackRecord := by
  have hx := congrArg Prod.snd h.fixed
  have hb : q.socketBinding = p.socketBinding := congrArg Prod.fst hx
  have ha : q.acks = p.acks := congrArg Prod.snd hx
  rw [PacketBuilder.ackRecord, PacketBuilder.ackRecord, ha, hb]

variable {ε : Type} {S : Panic → Prop} {P : ε → Prop}

lemma orAt_append (b t : Bytes) (x flag : UInt8) :
    (orAt (b ++ x :: t) b.length flag : Outcome ε Bytes) = .ok (b ++ (x ||| flag) :: t) := by
  have hx : (b ++ x :: t)[b.length]? = some x := by simp
  rw [orAt, index_ok hx, ok_bind]
  simp

section Ends

variable (hS : ∀ p, p ≠ .loopBound → S p)
include hS

lemma ends_remainingCap : Ends S P (fun cap => p.buf.length + cap = p.mtu) (p.remainingCap) := by
  apply ends_sub (hS _ (by decide))
  intro hle
  exact Nat.add_sub_cancel' hle

lemma ends_isFull : Ends S P (fun full => p.buf.length ≤ p.mtu ∧ (full = false → p.buf.length + minFrameAppendLen ≤ p.mtu))
    p.isFull := by
  apply (ends_remainingCap hS).bind
  intro cap hcap
  refine ⟨by omega, fun hfull => ?_⟩
  rw [decide_eq_false_iff_not] at hfull
  omega

lemma ends_pushFrame {i : ℕ} {f : ElicitingFrame} (hf : f.written <:+: q.buf) (hb : p.buf <+: q.buf)
    (he : q.elicitingFrames = p.elicitingFrames) (hx : q.fixed = p.fixed) :
    Ends S P (fun r => Appended p [f] r.2) (q.pushFrame i f) := by
  unfold pushFrame
  apply Ends.bind (ends_sub (Q := fun _ => True) (hS _ (by decide)) fun _ => trivial)
  intro len _
  have hadd : Ends S P (fun _ => True) (add32 q.resendLen (len % 2 ^ 32)) := by
    unfold add32
    split
    · trivial
    · exact hS _ (by decide)
  apply hadd.bind
  intro n _
  apply (ends_isFull hS).bind
  intro full _
  refine ⟨by rw [← he], hx, hb, fun g hg => ?_⟩
  rw [List.mem_singleton.mp hg]
  exact hf

lemma ends_appendData {b t : Bytes} {x : UInt8} (hp : p.buf = b ++ x :: t) (data : Bytes) :
    Ends S P (fun q => b <+: q.buf ∧ data <:+: q.buf ∧ q.elicitingFrames = p.elicitingFrames ∧ q.fixed = p.fixed)
      (p.appendData b.length data) := by
  have hflag : ∀ flag, (orAt p.buf b.length flag : Outcome ε Bytes) = .ok (b ++ (x ||| flag) :: t) := by
    intro flag
    rw [hp, orAt_append]
  unfold appendData
  apply (ends_remainingCap hS).bind
  intro cap _
  simp only [hflag, ok_bind]
  split_ifs
  · exact ⟨⟨_, (List.append_assoc ..).symm⟩, ⟨_, [], by rw [List.append_nil]⟩, rfl, rfl⟩
  · refine ⟨⟨(x ||| variantSegHasLen) :: t ++ varusizeWrite data.length ++ data, ?_⟩, ⟨_, [], List.append_nil _⟩, rfl, rfl⟩
    simp only [List.append_assoc, List.cons_append]
  · apply (ends_remainingCap hS).bind
    intro rest _
    refine ⟨⟨(x ||| variantSegHasTerminator) :: t ++ data ++ [variantNullTerminator] ++
      List.replicate rest variantPadding, ?_⟩, ⟨b ++ (x ||| variantSegHasTerminator) :: t,
      variantNullTerminator :: List.replicate rest variantPadding, ?_⟩, rfl, rfl⟩
    · simp only [List.append_assoc, List.cons_append]
    · simp only [List.append_assoc, List.cons_append, List.nil_append]

lemma ends_appendSeg (seg : Segment) : Ends S P (fun r => Appended p [.seg seg] r.2) (p.appendSeg seg) := by
  obtain ⟨t, ht⟩ : ∃ t, seg.header = seg.variant :: t := ⟨_, by simp only [Segment.header, List.cons_append]; rfl⟩
  unfold appendSeg
  apply (ends_appendData hS (by rw [ht]) seg.data).bind
  rintro q ⟨hb, hd, he, hx⟩
  exact ends_pushFrame hS hd hb he hx

lemma ends_appendControl (variant : UInt8) (docNo : ℕ) (label : Option ℕ) :
    Ends S P (fun r => Appended p [.control variant docNo label] r.2) (p.appendControl variant docNo label) := by
  apply ends_pushFrame hS
  · exact ⟨p.buf, [], by simp [ElicitingFrame.written]⟩
  · exact ⟨[variant] ++ varu64Write docNo, by simp⟩
  · rfl
  · rfl

end Ends

end PacketBuilder

namespace Segment

variable {seg a r : Segment}

/-- What the flags of a new segment mean. The form of its length is still open. -/
structure WellMade (seg : Segment) : Prop where
  form : seg.variant &&& variantSegLenMask = 0
  small : seg.variant ≤ 0x7C
  single : hasFlag seg.variant variantSegFlagIsSingleSeg → seg.docLen = seg.data.length
  first : hasFlag seg.variant variantSegFlagIsFirst → seg.off = 0
  label : seg.label = none

/-- `seg` is `a` followed by `r`. -/
structure Cut (seg a r : Segment) : Prop where
  first_label : a.label = seg.label
  first_docNo : a.docNo = seg.docNo
  first_off : a.off = seg.off
  rest_label : r.label = seg.label
  rest_docNo : r.docNo = seg.docNo
  rest_off : r.off = seg.off + a.data.length
  data : seg.data = a.data ++ r.data
  first_pos : 0 < a.data.length

lemma Cut.length_lt (h : Cut seg a r) : r.data.length < seg.data.length := by
  have hpos := h.first_pos
  rw [h.data, List.length_append]
  omega

variable {ε : Type} {S : Panic → Prop} {P : ε → Prop} {cap : ℕ}

/-- A variant that may get the flag for the document length. -/
def PartVariant (variant : UInt8) (off : ℕ) : Prop := ∀ b, let v := variant ||| flagIf b variantSegFlagHasDocLen
  v &&& variantSegLenMask = 0 ∧ v ≤ 0x7C ∧ hasFlag v variantSegFlagIsSingleSeg = false ∧
    (hasFlag v variantSegFlagIsFirst → off = 0)

lemma ends_tryPart (hS : ∀ p, p ≠ .loopBound → S p) {docNo headerLen : ℕ} {doc : SendDoc} {variant : UInt8}
    (hv : PartVariant variant doc.nextSegOff) :
    Ends S P (fun r => ∀ x ∈ r.toOption, x.1.WellMade) (tryPart docNo doc variant headerLen cap) := by
  obtain ⟨hform, hsmall, hsingle, hfirst⟩ := hv (!doc.hasBeenAcked)
  unfold tryPart
  dsimp only
  generalize headerLen + (if doc.hasBeenAcked then 0 else varusizeLen doc.data.length) = n
  split
  · exact fun x hx => absurd hx (Option.not_mem_none x)
  · apply Ends.bind (ends_sub (Q := fun _ => True) (hS _ (by decide)) fun _ => trivial)
    intro totalLeft _
    apply Ends.bind (ends_sub (Q := fun _ => True) (hS _ (by decide)) fun _ => trivial)
    intro room _
    apply Ends.bind (ends_add (Q := fun _ => True) (hS _ (by decide)) trivial)
    intro off _
    apply Ends.bind (ends_slice (Q := fun _ => True) (hS _ (by decide)) fun _ => trivial)
    rintro data _ x hx
    cases hx
    exact ⟨hform, hsmall, fun h => absurd (hsingle.symm.trans h) Bool.false_ne_true, hfirst, rfl⟩

lemma ends_tryNew (hS : ∀ p, p ≠ .loopBound → S p) {docNo : ℕ} {doc : SendDoc} {isClosed : Bool} :
    Ends S P (fun r => ∀ x ∈ r.toOption, x.1.WellMade) (tryNew docNo doc isClosed cap) := by
  unfold tryNew
  split
  · exact fun x hx => absurd hx (Option.not_mem_none x)
  dsimp only
  generalize doc.hasSpecialParent = special
  generalize doc.hasBeenAcked = acked
  split
  · rename_i hoff
    split
    · rintro x hx
      cases hx
      have hall : ∀ isClosed special : Bool,
          let v := flagIf isClosed variantSegFlagIsClosed ||| variantSegFlagIsFirst |||
            flagIf special variantSegFlagHasSpecialParent ||| variantSegFlagIsSingleSeg;
          v &&& variantSegLenMask = 0 ∧ v ≤ 0x7C := by decide
      obtain ⟨hform, hsmall⟩ := hall isClosed special
      exact ⟨hform, hsmall, fun _ => rfl, fun _ => hoff, rfl⟩
    · apply ends_tryPart hS
      rw [hoff]
      revert isClosed special
      unfold PartVariant
      decide
  · apply ends_tryPart hS
    have hall : ∀ isClosed special acked b : Bool,
        let v := flagIf isClosed variantSegFlagIsClosed |||
          flagIf (!acked && special) variantSegFlagHasSpecialParent ||| flagIf b variantSegFlagHasDocLen;
        v &&& variantSegLenMask = 0 ∧ v ≤ 0x7C ∧ hasFlag v variantSegFlagIsSingleSeg = false ∧
          hasFlag v variantSegFlagIsFirst = false := by decide
    intro b
    obtain ⟨hform, hsmall, hsingle, hfirst⟩ := hall isClosed special acked b
    exact ⟨hform, hsmall, hsingle, fun h => absurd (hfirst.symm.trans h) Bool.false_ne_true⟩

lemma ends_splitOff {Q : Bytes × Bytes → Prop} {data : Bytes} {n : ℕ} (hS : S .slice)
    (h : n ≤ data.length → Q (data.take n, data.drop n)) : Ends S P Q (splitOff data n) := by
  unfold splitOff
  split
  · exact h ‹_›
  · exact hS

lemma ends_restHeader {variant : UInt8} {headerLen docParentNo newOff : ℕ} (hS : S .arith) :
    Ends S P (fun _ => True) (restHeader variant headerLen docParentNo newOff) := by
  unfold restHeader
  split
  · dsimp only
    split
    · trivial
    · exact (ends_sub (Q := fun _ => True) hS fun _ => trivial).bind fun _ _ => trivial
  · trivial

lemma cutHeader_le (hcap : seg.headerLen + minSegDataLen ≤ cap)
    (h : ¬ (hasFlag seg.variant variantSegFlagIsSingleSeg ∧ seg.cutHeader.2 + minSegDataLen > cap)) :
    seg.cutHeader.2 + minSegDataLen ≤ cap := by
  by_cases hs : hasFlag seg.variant variantSegFlagIsSingleSeg
  · exact not_lt.mp fun hlt => h ⟨hs, hlt⟩
  · rwa [cutHeader, if_neg hs]

lemma ends_cut (hS : ∀ p, p ≠ .loopBound → S p) (hcap : seg.headerLen + minSegDataLen ≤ cap) :
    Ends S P (fun o => ∀ a r, o = some (a, r) → Cut seg a r) (seg.cut cap) := by
  unfold cut
  dsimp only
  split
  · intro a r h
    cases h
  rename_i hno
  have hroom := cutHeader_le hcap hno
  apply Ends.bind (ends_sub (Q := fun n => n = cap - seg.cutHeader.2) (hS _ (by decide)) fun _ => rfl)
  rintro n rfl
  apply Ends.bind (ends_add (Q := fun off => off = seg.off + (cap - seg.cutHeader.2)) (hS _ (by decide)) rfl)
  rintro off rfl
  apply (ends_restHeader (hS _ (by decide))).bind
  rintro ⟨variant, headerLen⟩ -
  apply Ends.bind (ends_splitOff (Q := fun d => d = (seg.data.take (cap - seg.cutHeader.2),
    seg.data.drop (cap - seg.cutHeader.2)) ∧ cap - seg.cutHeader.2 ≤ seg.data.length) (hS _ (by decide)) fun h => ⟨rfl, h⟩)
  rintro d ⟨rfl, hle⟩ a r h
  have hlen : (seg.data.take (cap - seg.cutHeader.2)).length = cap - seg.cutHeader.2 := by
    rw [List.length_take, min_eq_left hle]
  cases h
  refine ⟨rfl, rfl, rfl, rfl, rfl, ?_, (List.take_append_drop _ _).symm, ?_⟩
  · exact congrArg _ hlen.symm
  · rw [hlen]
    simp only [minSegDataLen] at hroom
    omega

end Segment

namespace PacketBuilder

variable {p : PacketBuilder} {ε : Type} {S : Panic → Prop} {P : ε → Prop}

/-- What became of a segment: nothing, as the packet is full, or a part of it or all of it was appended. -/
inductive Tried (p : PacketBuilder) (seg : Segment) : Bool × Option Segment × PacketBuilder → Prop
  | refused : Tried p seg (true, some seg, p)
  | part {a r q full} (hcut : Segment.Cut seg a r) (h : Appended p [.seg a] q) : Tried p seg (full, some r, q)
  | whole {q full} (h : Appended p [.seg seg] q) : Tried p seg (full, none, q)

lemma ends_tryAppendSeg (hS : ∀ p, p ≠ .loopBound → S p) (seg : Segment) :
    Ends S P (Tried p seg) (p.tryAppendSeg seg) := by
  unfold tryAppendSeg
  apply (ends_remainingCap hS).bind
  intro cap _
  dsimp only
  split_ifs with hcap hlen
  · exact .refused
  · apply (Segment.ends_cut hS (not_lt.mp hcap)).bind
    rintro (_ | ⟨a, r⟩) ho
    · exact .refused
    · apply (ends_appendSeg hS a).bind
      rintro ⟨_, q⟩ hq
      apply (ends_isFull hS).bind
      intro full _
      exact .part (ho a r rfl) hq
  · apply (ends_appendSeg hS seg).bind
    rintro ⟨_, q⟩ hq
    apply (ends_isFull hS).bind
    intro full _
    exact .whole hq

end PacketBuilder

/-! Acks are written behind what the buffer holds and up to its capacity, whatever list they are taken from. -/

namespace AckRuns

variable {ε : Type} {S : Panic → Prop} {P : ε → Prop} {acks : List UInt32} {maxLen capacity start i : ℕ} {buf : Buf}
  {b : Bytes}

@[simp] lemma Buf.len_extend (buf : Buf) (x : Bytes) : (buf.extend x).len = buf.len + x.length := List.length_append

@[simp] lemma varu32Write_length (v : UInt32) : (varu32Write v).length = varu32Len v := varusizeWrite_length v.toNat

/-- Inside a frame whose first ack has index `start`: the run that is pending is not yet in the buffer. -/
structure Ahead (b : Bytes) (maxLen start : ℕ) (c : Cursor) : Prop where
  buf : b <+: c.buf.bytes
  room : c.buf.len ≤ maxLen
  index : start + 1 + c.curSetRunLen.toNat ≤ c.i

lemma Ahead.extend (h : b <+: buf.bytes) (x : Bytes) : b <+: (buf.extend x).bytes := h.trans (List.prefix_append _ _)

/-- The loop body goes on with the next ack, or ends the frame. -/
def Progress (b : Bytes) (maxLen start i : ℕ) : Flow × Cursor → Prop
  | (.next, c) => Ahead b maxLen start c ∧ c.i = i + 1
  | (.stop, c) => Ahead b maxLen start c

lemma ends_writeUnsetRun {diff : UInt32} (hb : b <+: buf.bytes) (hroom : buf.len ≤ maxLen) (hi : start + 1 ≤ i) :
    Ends S P (Progress b maxLen start i) (writeUnsetRun maxLen (i + 1) buf diff) := by
  have hstop : Progress b maxLen start i (.stop, ⟨i, buf, 0⟩) := ⟨hb, hroom, hi⟩
  simp only [writeUnsetRun, sub_ok (Nat.le_add_left 1 i), ok_bind, Nat.add_sub_cancel]
  split
  · exact hstop
  split
  · exact hstop
  rename_i hle
  have hext := Ahead.extend hb (varu32Write ((diff - 2) <<< 1))
  have hlen : (buf.extend (varu32Write ((diff - 2) <<< 1))).len ≤ maxLen := by
    rw [Buf.len_extend, varu32Write_length]
    exact not_lt.mp hle
  split
  · exact ⟨hext, hlen, hi.trans (Nat.le_succ i)⟩
  · exact ⟨⟨hext, hlen, hi.trans (Nat.le_succ i)⟩, rfl⟩

lemma ends_writeGap {pend diff : UInt32} (hb : b <+: buf.bytes) (hroom : buf.len ≤ maxLen) (hi : start + 1 + pend.toNat ≤ i) :
    Ends S P (Progress b maxLen start i) (writeGap maxLen (i + 1) buf pend diff) := by
  unfold writeGap
  split
  swap
  · exact ends_writeUnsetRun hb hroom (by omega)
  have hext := Ahead.extend hb (varu32Write (setRunCode pend))
  simp only [sub_ok (show pend.toNat + 1 ≤ i + 1 by omega), sub_ok (Nat.le_add_left 1 i), ok_bind, Nat.add_sub_cancel]
  split
  · refine ⟨hb, hroom, ?_⟩
    change start + 1 + 0 ≤ i + 1 - (pend.toNat + 1)
    omega
  rename_i hle
  have hlen : (buf.extend (varu32Write (setRunCode pend))).len ≤ maxLen := by
    rw [Buf.len_extend, varu32Write_length]
    exact not_lt.mp hle
  split
  · exact ⟨hext, hlen, by change start + 1 + 0 ≤ i; omega⟩
  split
  · exact ⟨⟨hext, hlen, by change start + 1 + 1 ≤ i + 1; omega⟩, rfl⟩
  · exact ends_writeUnsetRun hext hlen (by omega)

lemma ends_closeRun {c : Cursor} (h : Ahead b maxLen start c) :
    Ends S P (fun r => b <+: r.2.bytes ∧ r.2.len ≤ maxLen ∧ start + 1 ≤ r.1) (closeRun maxLen c) := by
  have hi := h.index
  unfold closeRun
  dsimp only
  split_ifs with hpend hle
  · rw [sub_ok (by omega), ok_bind]
    exact ⟨h.buf, h.room, by dsimp only; omega⟩
  · refine ⟨Ahead.extend h.buf _, ?_, by dsimp only; omega⟩
    rw [Buf.len_extend, varu32Write_length]
    exact not_lt.mp hle
  · exact ⟨h.buf, h.room, by dsimp only; omega⟩

lemma ends_ackAt (h : i < acks.length) : Ends S P (fun _ => True) (ackAt acks i) := by
  rw [ackAt, List.getElem?_eq_getElem h]
  trivial

lemma ends_encodeStep {c : Cursor} (h : Ahead b maxLen start c) (hc : c.i < acks.length) :
    Ends S P (Progress b maxLen start c.i) (encodeStep acks maxLen c) := by
  have hi := h.index
  unfold encodeStep
  apply (ends_ackAt hc).bind
  intro x _
  rw [sub_ok (by omega), ok_bind]
  apply (ends_ackAt (show c.i - 1 < acks.length by omega)).bind
  intro y _
  dsimp only
  split
  · refine ⟨⟨h.buf, h.room, ?_⟩, rfl⟩
    change start + 1 + (c.curSetRunLen + 1).toNat ≤ c.i + 1
    have hadd : (c.curSetRunLen + 1).toNat ≤ c.curSetRunLen.toNat + 1 := by
      rw [UInt32.toNat_add]
      exact Nat.mod_le _ _
    omega
  · exact ends_writeGap h.buf h.room hi

lemma ends_encodeRuns {fuel : ℕ} {c : Cursor} (h : Ahead b maxLen start c) (hf : acks.length - c.i < fuel) :
    Ends S P (Ahead b maxLen start) (encodeRuns acks maxLen fuel c) := by
  induction fuel generalizing c with
  | zero => omega
  | succ fuel ih =>
    unfold encodeRuns
    split
    swap
    · exact h
    apply (ends_encodeStep h ‹_›).bind
    rintro ⟨_ | _, c'⟩ hc
    · obtain ⟨hc, hi⟩ := hc
      exact ih hc (by omega)
    · exact hc

lemma ends_set {k : ℕ} {x : UInt8} (hb : b <+: buf.bytes) (hk : b.length ≤ k) (hlt : k < buf.len) :
    Ends S P (fun r => b <+: r.bytes ∧ r.len = buf.len) (buf.set k x) := by
  rw [Buf.set, if_pos (show k < buf.bytes.length from hlt), ends_ok, List.prefix_iff_eq_take, List.take_set_of_le hk]
  exact ⟨List.prefix_iff_eq_take.mp hb, List.length_set⟩

lemma ends_closeFrame {k : ℕ} (hb : b <+: buf.bytes) (hk : b.length < k) (hlt : k < buf.len) :
    Ends S P (fun r => b <+: r.bytes ∧ r.len ≤ buf.len) (closeFrame b.length k buf) := by
  have hpop : buf.pop.len = buf.len - 1 := List.length_dropLast
  rw [closeFrame, sub_ok hlt.le, ok_bind]
  split
  · refine (ends_set ?_ le_rfl (by omega)).imp (fun _ h => h) fun r hr => ⟨hr.1, by omega⟩
    rw [List.prefix_iff_eq_take] at hb ⊢
    rwa [Buf.pop, List.dropLast_eq_take, List.take_take, min_eq_left]
    change b.length ≤ buf.len - 1
    omega
  · exact (ends_set hb hk.le hlt).imp (fun _ h => h) fun r hr => ⟨hr.1, hr.2.le⟩

lemma ends_encodeFrames {fuel : ℕ} (hb : b <+: buf.bytes) (hf : acks.length - i < fuel) :
    Ends S P (fun r => b <+: r.2.bytes ∧ (buf.len ≤ capacity → r.2.len ≤ capacity) ∧ i ≤ r.1 ∧
      (i < acks.length → buf.len + 5 ≤ capacity → i < r.1)) (encodeFrames acks capacity fuel i buf) := by
  induction fuel generalizing i buf with
  | zero => omega
  | succ fuel ih =>
    unfold encodeFrames
    dsimp only
    split
    swap
    · exact ⟨hb, id, le_rfl, fun hlt => absurd hlt ‹_›⟩
    rename_i hi
    split
    · exact ⟨hb, id, le_rfl, fun _ hle => absurd hle (by omega)⟩
    apply (ends_ackAt hi).bind
    intro x _
    have hhead := Ahead.extend (Ahead.extend (List.prefix_refl buf.bytes) [variantAckRun]) (toBe 4 x.toNat)
    have hlen : ((buf.extend [variantAckRun]).extend (toBe 4 x.toNat)).len = buf.len + 5 := by simp
    split
    · apply (ends_set hhead le_rfl (by change buf.len < _; omega)).bind
      rintro r ⟨hr, hrlen⟩
      exact ⟨hb.trans hr, fun _ => by dsimp only; omega, Nat.le_succ i, fun _ _ => Nat.lt_succ_self i⟩
    · -- the runs stand behind a variant, an ack and the byte for their length
      have hstart := Ahead.extend hhead [0]
      have hfive : (((buf.extend [variantAckRun]).extend (toBe 4 x.toNat)).extend [0]).len = buf.len + 6 := by simp
      generalize ((buf.extend [variantAckRun]).extend (toBe 4 x.toNat)).extend [0] = d at hstart hfive
      have hroom : d.len ≤ min capacity (d.len + 256) := by omega
      apply (ends_encodeRuns (c := ⟨i + 1, d, 0⟩) ⟨List.prefix_refl d.bytes, hroom, le_rfl⟩ (by dsimp only; omega)).bind
      intro c hc
      apply (ends_closeRun hc).bind
      rintro ⟨j, buf'⟩ ⟨hbuf, hle, hj⟩
      have hlong : d.len ≤ buf'.len := hbuf.length_le
      apply (ends_closeFrame (hstart.trans hbuf) (show buf.len < buf.len + 5 by omega) (show _ < buf'.len by omega)).bind
      rintro r ⟨hr, hrlen⟩
      apply (ih (hb.trans hr) (by omega)).imp (fun _ h => h)
      rintro r' ⟨hr', hcap, hjr, -⟩
      exact ⟨hr', fun _ => hcap (hrlen.trans (hle.trans (min_le_left _ _))), by omega, fun _ _ => by omega⟩

end AckRuns

namespace PacketBuilder

variable {p : PacketBuilder} {ε : Type} {S : Panic → Prop} {P : ε → Prop}

/-- Ack lists are sorted, and far shorter than the numbers that count them. -/
def SortedAcks (acks : List UInt32) : Prop := acks.Pairwise (· < ·) ∧ acks.length < 2 ^ 29

/-- The acks `taken` were appended to `p`, which binds it to their socket. -/
structure AcksAppended (p : PacketBuilder) (acks : List UInt32) (socketIdx : Bool) (socketUid : UInt32) (taken : List UInt32)
    (r : Bool × PacketBuilder × List UInt32) : Prop where
  split : acks = taken ++ r.2.2
  frames : r.2.1.elicitingFrames = p.elicitingFrames
  mtu : r.2.1.mtu = p.mtu
  bound : taken ≠ [] → r.2.1.socketBinding = some (socketIdx, socketUid) ∧ r.2.1.acks = p.acks ++ [(socketIdx, taken)]
  unbound : taken = [] → r.2.1.fixed = p.fixed
  buf : p.buf <+: r.2.1.buf
  room : r.1 = false → r.2.1.buf.length + minFrameAppendLen ≤ r.2.1.mtu
  progress : acks ≠ [] → p.buf.length + 5 ≤ p.mtu → taken ≠ []
  bytes : SortedAcks acks → ∃ ds : List AckRuns.Frame, r.2.1.buf = p.buf ++ ds.flatMap AckRuns.Frame.bytes ∧
    ds.flatMap AckRuns.Frame.acks = taken

lemma exists_frames {acks : List UInt32} {n : ℕ} {buf : AckRuns.Buf} (hs : SortedAcks acks) (hp : p.buf.length ≤ p.mtu)
    (h : (AckRuns.encode p.buf acks p.mtu : Outcome ε _) = .ok (n, buf)) :
    ∃ ds : List AckRuns.Frame, buf.bytes = p.buf ++ ds.flatMap AckRuns.Frame.bytes ∧
      ds.flatMap AckRuns.Frame.acks = acks.take n := by
  have hpeak : (AckRuns.Buf.ofBytes p.buf).peak ≤ p.mtu := hp
  obtain ⟨j, ds, peak, henc, -, -, -, htake, -⟩ := AckRuns.encodeFrames_spec (ε := ε) (i := 0) (n := acks.length + 1)
    hs.1 hs.2 hpeak hp (Nat.zero_le _) (by omega)
  rw [AckRuns.encode, henc] at h
  cases h
  exact ⟨ds, rfl, by rw [htake, List.take_zero, List.nil_append]⟩

lemma ends_appendSortedAcks (hS : ∀ p, p ≠ .loopBound → S p) {acks : List UInt32} {socketIdx : Bool} {socketUid : UInt32} :
    Ends S P (fun r => ∃ taken, AcksAppended p acks socketIdx socketUid taken r)
      (p.appendSortedAcks acks socketIdx socketUid) := by
  have hencode : Ends S P _ (AckRuns.encode p.buf acks p.mtu) :=
    AckRuns.ends_encodeFrames (b := p.buf) (List.prefix_refl _) (by omega)
  unfold appendSortedAcks
  apply hencode.and_eq.bind
  rintro ⟨n, buf⟩ ⟨⟨hbuf, -, -, hprog⟩, heq⟩
  have hprogress : acks ≠ [] → p.buf.length + 5 ≤ p.mtu → acks.take n ≠ [] := by
    intro hne hle
    have hn := hprog (List.length_pos_of_ne_nil hne) hle
    rw [ne_eq, List.take_eq_nil_iff]
    rintro (hn' | hnil)
    · omega
    · exact hne hnil
  dsimp only
  split
  · rename_i hpos
    apply (ends_isFull hS).bind
    rintro full ⟨hle, hroom⟩
    refine ⟨acks.take n, (List.take_append_drop _ _).symm, rfl, rfl, fun _ => ⟨rfl, rfl⟩, fun hnil => ?_, hbuf, hroom,
      hprogress, fun hs => exists_frames hs (hbuf.length_le.trans hle) heq⟩
    rcases List.take_eq_nil_iff.mp hnil with hn | rfl
    · exact absurd hn hpos.ne'
    · cases heq
      exact absurd hpos (lt_irrefl 0)
  · rename_i hpos
    apply (ends_isFull hS).bind
    rintro full ⟨hle, hroom⟩
    have hnil : acks.take n = [] := by rw [Nat.eq_zero_of_not_pos hpos, List.take_zero]
    exact ⟨acks.take n, (List.take_append_drop _ _).symm, rfl, rfl, fun hne => absurd hnil hne, fun _ => rfl, hbuf, hroom,
      hprogress, fun hs => exists_frames hs (hbuf.length_le.trans hle) heq⟩

end PacketBuilder

end Pqsnet.Session
