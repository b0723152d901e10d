import Pqsnet.Session.SegmentCodec

/-! Packets filled with segments are read back frame by frame. -/

namespace Pqsnet.Session

open Checked Outcome

namespace PacketBuilder

variable {p q : PacketBuilder} {seg : Segment} {form : Segment.Form} {ε : Type} {cap : ℕ}

/-- A packet that can still be filled without an overflow. -/
structure Roomy (p : PacketBuilder) : Prop where
  room : p.buf.length ≤ p.mtu
  mtu : p.mtu < 2 ^ 32
  resend : p.resendLen ≤ p.buf.length

/-- A packet that was appended to, and that has room for any small frame unless it is to be sent. -/
structure Grown (p : PacketBuilder) (full : Bool) (q : PacketBuilder) : Prop where
  roomy : q.Roomy
  mtu : q.mtu = p.mtu
  room : full = false → q.buf.length + minFrameAppendLen ≤ q.mtu

/-- The frame of a segment stands behind `p`. A length is written only where there is room for it. -/
structure Placed (p : PacketBuilder) (seg : Segment) (form : Segment.Form) (q : PacketBuilder) : Prop where
  buf : q.buf = p.buf ++ seg.frame form
  mtu : q.mtu = p.mtu
  len : form = .hasLen → p.buf.length + seg.header.length + varusizeLen seg.data.length + seg.data.length ≤ p.mtu

lemma pushFrame_eq {i : ℕ} (hi : i ≤ q.buf.length) (hroom : q.buf.length ≤ q.mtu) (hmtu : q.mtu < 2 ^ 32)
    (hresend : q.resendLen ≤ i) (f : ElicitingFrame) : ∃ r : PacketBuilder,
    (q.pushFrame i f : Outcome ε _) = .ok (decide (q.mtu - q.buf.length < minFrameAppendLen), r) ∧
      r.buf = q.buf ∧ Grown q (decide (q.mtu - q.buf.length < minFrameAppendLen)) r := by
  have hmod : (q.buf.length - i) % 2 ^ 32 = q.buf.length - i := Nat.mod_eq_of_lt (by omega)
  have hsum : q.resendLen + (q.buf.length - i) < 2 ^ 32 := by omega
  refine ⟨{ q with resendLen := q.resendLen + (q.buf.length - i), elicitingFrames := q.elicitingFrames ++ [f] }, ?_,
    rfl, ⟨hroom, hmtu, ?_⟩, rfl, fun h => ?_⟩
  · rw [pushFrame, sub_ok hi, ok_bind, hmod, add32, if_pos hsum, ok_bind]
    dsimp only
    rw [isFull, remainingCap, sub_ok hroom, ok_bind, ok_bind]
  · change q.resendLen + (q.buf.length - i) ≤ q.buf.length
    omega
  · rw [decide_eq_false_iff_not] at h
    dsimp only
    omega

/-- What `append_seg` writes for a segment that fits. Only in the form with a length is there room for more. -/
lemma appendData_eq {b t : Bytes} {x : UInt8} (hbuf : p.buf = b ++ x :: t) (seg : Segment) (cap : ℕ)
    (hcap : p.buf.length + cap = p.mtu) (hfit : seg.data.length ≤ cap) :
    ∃ (form : Segment.Form) (q : PacketBuilder), (p.appendData b.length seg.data : Outcome ε _) = .ok q ∧
      q.buf = b ++ (x ||| form.code) :: (t ++ seg.payload form) ∧ q.mtu = p.mtu ∧ q.resendLen = p.resendLen ∧
      (form = .hasLen → varusizeLen seg.data.length + seg.data.length ≤ cap) ∧ (form ≠ .hasLen → q.buf.length = p.mtu) ∧
      q.buf.length ≤ p.mtu := by
  have hflag : ∀ flag, (orAt p.buf b.length flag : Outcome ε Bytes) = .ok (b ++ (x ||| flag) :: t) := by
    intro flag
    rw [hbuf, orAt_append]
  have hlength : b.length + (t.length + 1) + cap = p.mtu := by
    rw [← hcap, hbuf, List.length_append, List.length_cons]
  have hsub : p.mtu - p.buf.length = cap := by omega
  rw [appendData, remainingCap, sub_ok (by omega), ok_bind, hsub]
  by_cases hall : seg.data.length = cap
  · rw [if_pos hall, hflag, ok_bind]
    refine ⟨.isTerminator, _, rfl, ?_, rfl, rfl, by simp, fun _ => ?_, ?_⟩
    · simp only [List.append_assoc, List.cons_append]
      rfl
    all_goals
      simp only [List.length_append, List.length_cons]
      omega
  by_cases hlen : seg.data.length + varusizeLen seg.data.length ≤ cap
  · rw [if_neg hall, if_pos hlen, hflag, ok_bind]
    refine ⟨.hasLen, _, rfl, ?_, rfl, rfl, fun _ => by omega, fun h => absurd rfl h, ?_⟩
    · simp only [List.append_assoc, List.cons_append]
      rfl
    · simp only [List.length_append, List.length_cons, varusizeWrite_length]
      omega
  · have hleft : (b ++ (x ||| variantSegHasTerminator) :: t ++ seg.data ++ [variantNullTerminator]).length =
        p.mtu - (cap - seg.data.length - 1) := by
      simp only [List.length_append, List.length_cons, List.length_nil]
      omega
    rw [if_neg hall, if_neg hlen, hflag, ok_bind]
    dsimp only
    rw [remainingCap, sub_ok (by dsimp only; omega), ok_bind]
    refine ⟨.hasTerminator (cap - seg.data.length - 1), _, rfl, ?_, rfl, rfl, by simp, fun _ => ?_, ?_⟩
    · dsimp only
      rw [hleft, show p.mtu - (p.mtu - (cap - seg.data.length - 1)) = cap - seg.data.length - 1 by omega]
      simp only [List.append_assoc, List.cons_append, List.nil_append]
      rfl
    all_goals
      dsimp only
      rw [List.length_append, List.length_replicate, hleft]
      omega

lemma appendSeg_placed (hp : p.Roomy) (hcap : p.buf.length + cap = p.mtu)
    (hfit : seg.header.length + seg.data.length ≤ cap) : ∃ (full : Bool) (q : PacketBuilder) (form : Segment.Form),
    (p.appendSeg seg : Outcome ε _) = .ok (full, q) ∧ Placed p seg form q ∧ Grown p full q ∧ (form ≠ .hasLen → full) := by
  have hheader : seg.header.length = seg.fields.length + 1 := by rw [seg.header_eq, List.length_cons]
  obtain ⟨form, q, hdata, hbuf, hmtu, hresend, hlen, hfull, hroom⟩ := appendData_eq (ε := ε)
    (p := { p with buf := p.buf ++ seg.header }) (by rw [seg.header_eq]) seg (cap - seg.header.length)
    (by dsimp only; rw [List.length_append]; omega) (by omega)
  have hstart : p.buf.length ≤ q.buf.length := by
    rw [hbuf, List.length_append]
    omega
  obtain ⟨r, hpush, hr, hroomy, hrmtu, hleft⟩ := pushFrame_eq (ε := ε) hstart (hroom.trans hmtu.ge) (hmtu ▸ hp.mtu)
    (hresend.trans_le hp.resend) (.seg seg)
  refine ⟨_, r, form, by rw [appendSeg, hdata, ok_bind, hpush], ⟨hr.trans hbuf, hrmtu.trans hmtu, ?_⟩,
    ⟨hroomy, hrmtu.trans hmtu, hleft⟩, ?_⟩
  · intro h
    have := hlen h
    omega
  · intro h
    rw [hfull h, hmtu]
    simp [minFrameAppendLen]

/-- Appends a segment of each document in turn until the packet is full. Also gives the segments, each with the index
at which it begins. -/
def packSegs (p : PacketBuilder) : List (ℕ × SendDoc × Bool) → Outcome ε (PacketBuilder × List (ℕ × Segment))
  | [] => .ok (p, [])
  | (docNo, doc, isClosed) :: rest => do
    let cap ← p.remainingCap
    match ← Segment.tryNew docNo doc isClosed cap with
    | .error _ => packSegs p rest
    | .ok (seg, _) =>
      let (full, q) ← p.appendSeg seg
      if full then .ok (q, [(p.buf.length, seg)])
      else
        let (q, segs) ← packSegs q rest
        .ok (q, (p.buf.length, seg) :: segs)

/-- Frames that follow each other from `p` to `q`. All but the last tell their length. -/
inductive Packed : PacketBuilder → List (ℕ × Segment) → PacketBuilder → Prop
  | nil (p : PacketBuilder) : Packed p [] p
  | last {p q : PacketBuilder} {seg : Segment} {form : Segment.Form} (hmade : seg.WellMade) (h : Placed p seg form q) : Packed p [(p.buf.length, seg)] q
  | cons {p q r : PacketBuilder} {seg : Segment} {segs : List (ℕ × Segment)} (hmade : seg.WellMade)
      (h : Placed p seg .hasLen q) (htail : Packed q segs r) :
      Packed p ((p.buf.length, seg) :: segs) r

lemma packSegs_packed {docs : List (ℕ × SendDoc × Bool)} (hp : p.Roomy)
    (hdocs : ∀ x ∈ docs, x.2.1.data.length < 2 ^ 64) : ∃ q segs, (p.packSegs docs : Outcome ε _) = .ok (q, segs) ∧
      Packed p segs q ∧ q.Roomy ∧ q.mtu = p.mtu := by
  induction docs generalizing p with
  | nil => exact ⟨p, [], rfl, .nil p, hp, rfl⟩
  | cons x rest ih =>
    obtain ⟨docNo, doc, isClosed⟩ := x
    have hrest : ∀ x ∈ rest, x.2.1.data.length < 2 ^ 64 := fun x hx => hdocs x (List.mem_cons_of_mem _ hx)
    have hcap : p.buf.length + (p.mtu - p.buf.length) = p.mtu := Nat.add_sub_cancel' hp.room
    rw [packSegs, remainingCap, sub_ok hp.room, ok_bind]
    obtain ⟨new, hnew, hmade⟩ := Segment.tryNew_eq (ε := ε) docNo isClosed (p.mtu - p.buf.length)
      (hdocs _ List.mem_cons_self)
    dsimp only at hnew
    rw [hnew, ok_bind]
    rcases new with b | ⟨seg, doc'⟩
    · exact ih hp hrest
    · obtain ⟨hmade, hlen, hfit⟩ : seg.WellMade ∧ seg.Fits _ := hmade _ rfl
      obtain ⟨full, q, form, happend, hplaced, hq, hfull⟩ := appendSeg_placed (ε := ε) hp hcap (hlen ▸ hfit)
      dsimp only
      rw [happend, ok_bind]
      cases full with
      | true => exact ⟨q, _, rfl, .last hmade hplaced, hq.roomy, hplaced.mtu⟩
      | false =>
        obtain rfl : form = .hasLen := by_contra fun h => absurd (hfull h) Bool.false_ne_true
        obtain ⟨r, segs, hpack, hpacked, hr, hmtu⟩ := ih hq.roomy hrest
        exact ⟨r, (p.buf.length, seg) :: segs, by simp only [Bool.false_eq_true, if_false, hpack, ok_bind], .cons hmade hplaced hpacked, hr,
          hmtu.trans hplaced.mtu⟩

lemma Packed.exists_append {segs : List (ℕ × Segment)} (h : Packed p segs q) : ∃ c, q.buf = p.buf ++ c := by
  induction h with
  | nil p => exact ⟨[], (List.append_nil _).symm⟩
  | last _ h => exact ⟨_, h.buf⟩
  | cons _ h _ ih =>
    obtain ⟨c, hc⟩ := ih
    exact ⟨_, by rw [hc, h.buf, List.append_assoc]⟩

/-- A segment that begins at index `x.1`, all of whose integers read back. -/
structure Sendable (mtu : ℕ) (x : ℕ × Segment) : Prop where
  header : x.2.Encodable
  len : x.1 + x.2.header.length + varusizeLen x.2.data.length + x.2.data.length ≤ mtu → RoundTrips x.2.data.length

variable {debug : Bool} {packet a c : Bytes} {fuel : ℕ} {acc : List (ℕ × SegFrame)}

lemma recvFrames_frame (hseg : seg.Encodable) (hmade : seg.WellMade) (hlen : form = .hasLen → RoundTrips seg.data.length)
    (hc : form ≠ .hasLen → c = []) (hb : packet = a ++ (seg.frame form ++ c)) (hp : packet.length < 2 ^ 64) :
    (recvFrames (collectSeg debug packet) packet (fuel + 1) a.length acc : Outcome ε _) =
      recvFrames (collectSeg debug packet) packet fuel (a.length + (seg.frame form).length)
        (acc ++ [(a.length, seg.received)]) := by
  obtain ⟨hnull, hrange⟩ := hmade.range form
  have hat : packet[a.length]? = some (seg.variant ||| form.code) := by
    rw [hb, List.getElem?_append_right le_rfl, Nat.sub_self]
    rfl
  have hlt : a.length < packet.length := (List.getElem?_eq_some_iff.mp hat).1
  have hseg : (collectSeg debug packet acc (seg.variant ||| form.code) (a.length + 1) : Outcome ε _) =
      .ok (some (a.length + (seg.frame form).length), acc ++ [(a.length, seg.received)]) := by
    rw [collectSeg, Segment.parse_frame hseg hmade hlen hc hb hp, attempt, ok_bind]
    rfl
  rw [recvFrames, if_pos hlt, index_ok hat, ok_bind, if_neg hnull, if_pos hrange, hseg, ok_bind]

lemma recvFrames_packed {segs : List (ℕ × Segment)} (h : Packed p segs q) (hq : q.buf.length < 2 ^ 64)
    (hsegs : ∀ x ∈ segs, Sendable p.mtu x) (hfuel : q.buf.length - p.buf.length < fuel) :
    (recvFrames (collectSeg debug q.buf) q.buf fuel p.buf.length acc : Outcome ε _) =
      .ok (true, acc ++ segs.map fun x => (x.1, x.2.received)) := by
  induction h generalizing fuel acc with
  | nil p =>
    obtain ⟨fuel, rfl⟩ : ∃ n, fuel = n + 1 := ⟨fuel - 1, by omega⟩
    rw [recvFrames, if_neg (lt_irrefl _), List.map_nil, List.append_nil]
  | @last p q seg form hmade h =>
    obtain ⟨hseg, hlen⟩ := hsegs _ (List.mem_singleton_self _)
    have hlength : q.buf.length = p.buf.length + (seg.frame form).length := by rw [h.buf, List.length_append]
    have hpos : 0 < (seg.frame form).length := Nat.succ_pos _
    obtain ⟨fuel, rfl⟩ : ∃ n, fuel = n + 1 + 1 := ⟨fuel - 2, by omega⟩
    rw [recvFrames_frame hseg hmade (fun hform => hlen (h.len hform)) (fun _ => rfl) (by rw [h.buf, List.append_nil]) hq,
      ← hlength, recvFrames, if_neg (lt_irrefl _)]
    rfl
  | @cons p q r seg segs hmade h htail ih =>
    obtain ⟨hseg, hlen⟩ := hsegs _ List.mem_cons_self
    obtain ⟨c, hc⟩ := htail.exists_append
    have hlength : q.buf.length = p.buf.length + (seg.frame .hasLen).length := by rw [h.buf, List.length_append]
    have hpos : 0 < (seg.frame .hasLen).length := Nat.succ_pos _
    have hle : q.buf.length ≤ r.buf.length := by rw [hc, List.length_append]; omega
    obtain ⟨fuel, rfl⟩ : ∃ n, fuel = n + 1 := ⟨fuel - 1, by omega⟩
    rw [recvFrames_frame hseg hmade (fun _ => hlen (h.len rfl)) (fun hform => absurd rfl hform)
      (by rw [hc, h.buf, List.append_assoc]) hq, ← hlength,
      ih hq (fun x hx => h.mtu ▸ hsegs x (List.mem_cons_of_mem _ hx)) (by omega), List.map_cons, List.append_assoc]
    rfl

lemma roomy_new {mtu : ℕ} (hmtu : Protocol.headerLen ≤ mtu) (h32 : mtu < 2 ^ 32) : (new mtu).Roomy :=
  ⟨by rw [new, List.length_replicate]; exact hmtu, h32, Nat.zero_le _⟩

/-- Segments that were put into a packet are the ones that are read from it, each from where it was put. -/
theorem parseFrames_packSegs (debug : Bool) (mtu : ℕ) (hmtu : Protocol.headerLen ≤ mtu) (h32 : mtu < 2 ^ 32)
    (docs : List (ℕ × SendDoc × Bool)) (hdocs : ∀ x ∈ docs, x.2.1.data.length < 2 ^ 64) :
    ∃ q segs, ((new mtu).packSegs docs : Outcome ε _) = .ok (q, segs) ∧
      ((∀ x ∈ segs, Sendable mtu x) → (parseFrames debug q.buf Protocol.headerLen : Outcome ε _) =
        .ok (true, segs.map fun x => (x.1, x.2.received))) := by
  obtain ⟨q, segs, hpack, hpacked, hq, heq⟩ := packSegs_packed (ε := ε) (roomy_new hmtu h32) hdocs
  refine ⟨q, segs, hpack, fun hsegs => ?_⟩
  have hshort : q.buf.length < 2 ^ 64 := by
    have := hq.room
    have := hq.mtu
    omega
  exact recvFrames_packed hpacked hshort hsegs (Nat.lt_succ_self _)

/-- Two whole documents: the second one almost fills the packet, so that it ends with a terminator. -/
def wholeDocs : List (ℕ × SendDoc × Bool) :=
  [(5, ⟨3, false, false, 0, [0, 0xFF]⟩, false), (7, ⟨3, true, false, 0, List.replicate 82 0⟩, true)]

def wholeSegs : List (ℕ × Segment) :=
  [(8, ⟨0x24, 3, 5, 2, 3, 0, [0, 0xFF], none⟩), (14, ⟨0x6C, 3, 7, 82, 3, 0, List.replicate 82 0, none⟩)]

theorem parseFrames_packSegs_whole : ∃ q segs, ((new 100).packSegs wholeDocs : Outcome Unit _) = .ok (q, segs) ∧
    segs = wholeSegs ∧ (parseFrames true q.buf Protocol.headerLen : Outcome Unit _) =
      .ok (true, segs.map fun x => (x.1, x.2.received)) := by
  obtain ⟨q, segs, hpack, hparse⟩ := parseFrames_packSegs (ε := Unit) true 100 (by decide) (by decide) wholeDocs
    (by decide)
  have heval : ((new 100).packSegs wholeDocs : Outcome Unit _).toOption.map Prod.snd = some wholeSegs := by decide +kernel
  obtain rfl : segs = wholeSegs := by
    rw [hpack] at heval
    exact Option.some.inj heval
  refine ⟨q, _, hpack, rfl, hparse fun x hx => ?_⟩
  have hsmall : x.2.docParentNo < x.2.docNo ∧ x.2.docNo ≤ varintU32Max ∧ x.2.docLen ≤ varintU32Max ∧
      x.2.docParentNo ≤ varintU32Max ∧ x.2.off ≤ varintU32Max ∧ x.2.data.length ≤ varintU32Max := by
    revert x
    decide
  obtain ⟨holder, hdocNo, hdocLen, hparent, hoff, hlen⟩ := hsmall
  exact ⟨⟨holder, roundTrips_of_le hdocNo, fun _ => roundTrips_of_le hdocLen, fun _ => roundTrips_of_le hparent,
    fun _ => roundTrips_of_le hoff⟩, fun _ => roundTrips_of_le hlen⟩

end PacketBuilder

end Pqsnet.Session
