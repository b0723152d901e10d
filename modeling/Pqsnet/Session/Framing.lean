import Pqsnet.Session.Recv
import Pqsnet.Session.SegmentPackets

/-! Where the frames of a packet begin, and where the receiver takes them to begin. -/

namespace Pqsnet.Session

open Checked Outcome

variable {ε σ : Type} {debug : Bool} {packet a b : Bytes} {bs : List Bytes} {i fuel : ℕ}

section Visits

/-- The loop over the frames of a packet, with the indices at which it reads a variant. -/
def visitFrames (recvSeg : σ → UInt8 → ℕ → Outcome ε (Option ℕ × σ)) (packet : Bytes) :
    ℕ → ℕ → σ → Outcome ε (List ℕ × Bool × σ)
  | 0, _, _ => .panic .loopBound
  | fuel + 1, idx, x =>
    if idx < packet.length then do
      let variant ← index packet idx
      if variant = variantNullTerminator then .ok ([idx], true, x)
      else if variantSegMin ≤ variant ∧ variant ≤ variantSegMax then
        match ← recvSeg x variant (idx + 1) with
        | (some i, x) => do
          let (visits, r) ← visitFrames recvSeg packet fuel i x
          .ok (idx :: visits, r)
        | (none, x) => .ok ([idx], false, x)
      else do
        let (visits, r) ← visitFrames recvSeg packet fuel (idx + 1) x
        .ok (idx :: visits, r)
    else .ok ([], true, x)

lemma recvFrames_eq_visitFrames (recvSeg : σ → UInt8 → ℕ → Outcome ε (Option ℕ × σ)) (idx : ℕ) (x : σ) :
    recvFrames recvSeg packet fuel idx x = visitFrames recvSeg packet fuel idx x >>= fun r => .ok r.2 := by
  induction fuel generalizing idx x with
  | zero => rfl
  | succ fuel ih =>
    rw [recvFrames, visitFrames]
    split_ifs
    swap
    · rfl
    rw [bind_assoc]
    refine congrArg (index packet idx >>= ·) (funext fun variant => ?_)
    split_ifs
    · rfl
    · rw [bind_assoc]
      refine congrArg (recvSeg x variant (idx + 1) >>= ·) (funext fun r => ?_)
      obtain ⟨_ | j, x'⟩ := r
      · rfl
      · dsimp only
        rw [ih, bind_assoc]
        rfl
    · rw [ih, bind_assoc]
      rfl

end Visits

namespace SegFrame

end SegFrame

/-- Where frames begin that stand one behind the other from index `i` on. -/
def starts : ℕ → List Bytes → List ℕ
  | _, [] => []
  | i, b :: bs => i :: starts (i + b.length) bs

/-- The frames up to the first one that begins like a terminator. -/
def front : List Bytes → List Bytes
  | [] => []
  | b :: bs => if b.head? = some variantNullTerminator then [b] else b :: front bs

/-- The receiver takes each of the frames from `i` on to begin where it does, and nothing else for a frame. -/
def Framed (ε : Type) (debug : Bool) (packet : Bytes) (i : ℕ) (bs : List Bytes) : Prop :=
  ∃ segs, (visitFrames (collectSeg debug packet) packet (packet.length - i + 1) i [] : Outcome ε _) =
    .ok (starts i (front bs), true, segs)

namespace PacketBuilder

/-- A call that appends frames to a packet. -/
inductive Call
  | acks (acks : List UInt32) (socketIdx : Bool) (socketUid : UInt32)
  | control (variant : UInt8) (docNo : ℕ)
  | seg (seg : Segment)
  | trySeg (seg : Segment)

/-- A call that a packet accepts, and the frames it appends: any number of ack frames, one control frame, one segment, or
one segment or none. -/
inductive Appends (p : PacketBuilder) : Call → List Bytes → PacketBuilder → Prop
  | acks {acks rest : List UInt32} {socketIdx full : Bool} {socketUid : UInt32} {ds : List AckRuns.Frame} {q : PacketBuilder}
      (h : (p.appendSortedAcks acks socketIdx socketUid : Outcome Unit _) = .ok (full, q, rest))
      (hds : q.buf = p.buf ++ ds.flatMap AckRuns.Frame.bytes) :
      Appends p (.acks acks socketIdx socketUid) (ds.map AckRuns.Frame.bytes) q
  | control {variant : UInt8} {docNo : ℕ} {full : Bool} {q : PacketBuilder}
      (h : (p.appendControl variant docNo none : Outcome Unit _) = .ok (full, q)) :
      Appends p (.control variant docNo) [variant :: varu64Write docNo] q
  | seg {seg : Segment} {full : Bool} {q : PacketBuilder} (h : (p.appendSeg seg : Outcome Unit _) = .ok (full, q)) :
      Appends p (.seg seg) [q.buf.drop p.buf.length] q
  | trySeg {seg : Segment} {rest : Option Segment} {full : Bool} {q : PacketBuilder}
      (h : (p.tryAppendSeg seg : Outcome Unit _) = .ok (full, rest, q)) :
      Appends p (.trySeg seg) (if q.buf = p.buf then [] else [q.buf.drop p.buf.length]) q

/-- Calls that a packet accepts one after another, and the frames they append. -/
inductive Built : PacketBuilder → List Call → List Bytes → PacketBuilder → Prop
  | nil {p : PacketBuilder} : Built p [] [] p
  | cons {p q r : PacketBuilder} {c : Call} {cs : List Call} {bs bs' : List Bytes} (h : Appends p c bs q) (hrest : Built q cs bs' r) :
      Built p (c :: cs) (bs ++ bs') r

variable {p q : PacketBuilder} {seg : Segment} {full : Bool} {c : Call} {cs : List Call}

lemma pushFrame_buf {f : ElicitingFrame} (h : (p.pushFrame i f : Outcome ε _) = .ok (full, q)) : q.buf = p.buf := by
  obtain ⟨_, -, h⟩ := bind_eq_ok.mp h
  obtain ⟨_, -, h⟩ := bind_eq_ok.mp h
  obtain ⟨_, -, h⟩ := bind_eq_ok.mp h
  cases h
  rfl

lemma orAt_length {buf buf' : Bytes} {flag : UInt8} (h : (orAt buf i flag : Outcome ε _) = .ok buf') : buf'.length = buf.length := by
  obtain ⟨_, -, h⟩ := bind_eq_ok.mp h
  cases h
  exact List.length_set

lemma appendData_length {data : Bytes} (h : (p.appendData i data : Outcome ε _) = .ok q) : p.buf.length ≤ q.buf.length := by
  rw [appendData] at h
  obtain ⟨cap, -, h⟩ := bind_eq_ok.mp h
  split_ifs at h
  · obtain ⟨buf, hbuf, h⟩ := bind_eq_ok.mp h
    cases h
    rw [List.length_append, orAt_length hbuf]
    exact Nat.le_add_right _ _
  · obtain ⟨buf, hbuf, h⟩ := bind_eq_ok.mp h
    cases h
    rw [List.length_append, List.length_append, orAt_length hbuf, Nat.add_assoc]
    exact Nat.le_add_right _ _
  · obtain ⟨buf, hbuf, h⟩ := bind_eq_ok.mp h
    obtain ⟨rest, -, h⟩ := bind_eq_ok.mp h
    cases h
    rw [List.length_append, List.length_append, List.length_append, orAt_length hbuf, Nat.add_assoc, Nat.add_assoc]
    exact Nat.le_add_right _ _

lemma appendSeg_frame (h : (p.appendSeg seg : Outcome ε _) = .ok (full, q)) :
    q.buf = p.buf ++ q.buf.drop p.buf.length ∧ 2 ≤ (q.buf.drop p.buf.length).length := by
  have happended := (ends_appendSeg (S := fun _ => True) (P := fun _ => True) (p := p) (fun _ _ => trivial) seg).ok h
  obtain ⟨r, hdata, hpush⟩ := bind_eq_ok.mp h
  have hlen := appendData_length hdata
  rw [← pushFrame_buf hpush] at hlen
  refine ⟨?_, ?_⟩
  · obtain ⟨t, ht⟩ := happended.buf
    rw [← ht, List.drop_left]
  · have hheader : 2 ≤ seg.header.length := by
      have hpos := varusizeLen_pos seg.docNo
      rw [Segment.header_length]
      omega
    rw [List.length_append] at hlen
    rw [List.length_drop]
    omega

lemma tryAppendSeg_cases {rest : Option Segment} (h : (p.tryAppendSeg seg : Outcome ε _) = .ok (full, rest, q)) :
    q = p ∨ ∃ seg' full', (p.appendSeg seg' : Outcome ε _) = .ok (full', q) := by
  rw [tryAppendSeg] at h
  obtain ⟨cap, -, h⟩ := bind_eq_ok.mp h
  split_ifs at h
  · cases h
    exact .inl rfl
  · obtain ⟨_ | ⟨seg', rest'⟩, -, h⟩ := bind_eq_ok.mp h
    · cases h
      exact .inl rfl
    · obtain ⟨⟨full', r⟩, happend, h⟩ := bind_eq_ok.mp h
      obtain ⟨_, -, h⟩ := bind_eq_ok.mp h
      cases h
      exact .inr ⟨seg', full', happend⟩
  · obtain ⟨⟨full', r⟩, happend, h⟩ := bind_eq_ok.mp h
    obtain ⟨_, -, h⟩ := bind_eq_ok.mp h
    cases h
    exact .inr ⟨seg, full', happend⟩

lemma Appends.frames (h : Appends p c bs q) : q.buf = p.buf ++ bs.flatten ∧ ∀ b ∈ bs, 2 ≤ b.length := by
  cases h with
  | acks h hds =>
    refine ⟨hds, fun b hb => ?_⟩
    obtain ⟨d, -, rfl⟩ := List.mem_map.mp hb
    rw [AckRuns.Frame.bytes]
    split_ifs
    · rw [List.length_cons, toBe_length]
      decide
    · rw [List.length_cons, List.length_append, toBe_length]
      omega
  | control h =>
    refine ⟨?_, fun b hb => ?_⟩
    · rw [pushFrame_buf h, List.append_assoc, List.flatten_singleton]
      rfl
    · rw [List.mem_singleton.mp hb, List.length_cons, varu64Write, varusizeWrite_length]
      exact Nat.succ_le_succ (varusizeLen_pos _)
  | seg h =>
    obtain ⟨hbuf, hlen⟩ := appendSeg_frame h
    refine ⟨by rwa [List.flatten_singleton], fun b hb => ?_⟩
    rwa [List.mem_singleton.mp hb]
  | trySeg h =>
    rcases tryAppendSeg_cases h with rfl | ⟨seg', full', happend⟩
    · rw [if_pos rfl]
      exact ⟨(List.append_nil _).symm, fun b hb => absurd hb List.not_mem_nil⟩
    · obtain ⟨hbuf, hlen⟩ := appendSeg_frame happend
      have hne : q.buf ≠ p.buf := by
        intro heq
        rw [heq, List.drop_length] at hlen
        exact absurd hlen (by decide)
      rw [if_neg hne]
      refine ⟨by rwa [List.flatten_singleton], fun b hb => ?_⟩
      rwa [List.mem_singleton.mp hb]

lemma Built.frames (h : Built p cs bs q) : q.buf = p.buf ++ bs.flatten ∧ ∀ b ∈ bs, 2 ≤ b.length := by
  induction h with
  | nil => exact ⟨(List.append_nil _).symm, fun b hb => absurd hb List.not_mem_nil⟩
  | cons h _ ih =>
    obtain ⟨hbuf, hlen⟩ := h.frames
    refine ⟨by rw [ih.1, hbuf, List.flatten_append, List.append_assoc], fun b hb => ?_⟩
    rcases List.mem_append.mp hb with hb | hb
    · exact hlen b hb
    · exact ih.2 b hb

/-- The lists of acks are what `append_sorted_acks` is made for. -/
def Call.Sorted : Call → Prop
  | acks as _ _ => SortedAcks as
  | _ => True

def call (p : PacketBuilder) : Call → Outcome ε PacketBuilder
  | .acks acks socketIdx socketUid => do
    let (_, p, _) ← p.appendSortedAcks acks socketIdx socketUid
    .ok p
  | .control variant docNo => do
    let (_, p) ← p.appendControl variant docNo none
    .ok p
  | .seg seg => do
    let (_, p) ← p.appendSeg seg
    .ok p
  | .trySeg seg => do
    let (_, _, p) ← p.tryAppendSeg seg
    .ok p

def calls (p : PacketBuilder) : List Call → Outcome ε PacketBuilder
  | [] => .ok p
  | c :: cs => do
    let p ← p.call c
    p.calls cs

end PacketBuilder

end Pqsnet.Session
