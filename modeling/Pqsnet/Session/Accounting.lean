import Pqsnet.Session.AckPhase

/-! What a whole pass does with the frames of the payloads in flight. -/

namespace Pqsnet.Session

open Checked Outcome PacketBuilder Stock

variable {T : Type}

namespace SessionInner

variable {S : Panic → Prop} {tx : Tx T} {fs : List ElicitingFrame} {q : PacketBuilder}

/-- Frames that are sent for the first time. -/
def Fresh (ps : Multiset ElicitingFrame) : Prop := ∀ f ∈ ps, f.label = none

section Documents

/-- What the part of a pass that sends new frames may end with. -/
abbrev EndsFresh (S : Panic → Prop) (tx : Tx T) (x : Outcome (Sent T) (Tx T)) : Prop :=
  Ends S (fun out => ∃ ps, Fresh ps ∧ Grows (tx.stock none) out.stock ps)
    (fun tx' => ∃ ps, Fresh ps ∧ Grows (tx.stock none) (tx'.stock none) ps) x

lemma EndsFresh.refl (tx : Tx T) : EndsFresh S tx (.ok tx) := ⟨0, fun _ hf => absurd hf (Multiset.notMem_zero _), .refl _⟩

lemma EndsFresh.of_stock {tx' : Tx T} {x : Outcome (Sent T) (Tx T)} (hx : EndsFresh S tx' x)
    (h : tx'.stock none = tx.stock none) : EndsFresh S tx x := by
  rwa [EndsFresh, h] at hx

lemma EndsFresh.after {tx' : Tx T} {ps : Multiset ElicitingFrame} {x : Outcome (Sent T) (Tx T)} (hps : Fresh ps)
    (hgrow : Grows (tx.stock none) (tx'.stock none) ps) (h : EndsFresh S tx' x) : EndsFresh S tx x := by
  have hfresh : ∀ {qs}, Fresh qs → Fresh (ps + qs) := fun hqs f hf => (Multiset.mem_add.mp hf).elim (hps f) (hqs f)
  apply h.imp
  · rintro out ⟨qs, hqs, hout⟩
    exact ⟨ps + qs, hfresh hqs, hgrow.trans hout⟩
  · rintro tx'' ⟨qs, hqs, hout⟩
    exact ⟨ps + qs, hfresh hqs, hgrow.trans hout⟩

lemma endsFresh_emitIf (hS : ∀ p, p ≠ .loopBound → S p) {full : Bool} (h : Appended tx.packet fs q)
    (hfs : Fresh (fs : Multiset ElicitingFrame)) : EndsFresh S tx (Tx.emitIf full { tx with packet := q } id none) := by
  apply (ends_emitIf hS leaves_id h).imp
  · intro out hout
    exact ⟨fs, hfs, by simpa using hout⟩
  · rintro tx' ⟨hgrow, -⟩
    exact ⟨fs, hfs, hgrow⟩

lemma endsFresh_appendControl (hS : ∀ p, p ≠ .loopBound → S p) (variant : UInt8) (docNo : ℕ) :
    EndsFresh S tx (tx.appendControl variant docNo) := by
  apply (ends_appendControl hS variant docNo none).bind
  rintro ⟨full, q⟩ happ
  apply endsFresh_emitIf hS happ
  intro f hf
  rw [Multiset.mem_coe, List.mem_singleton] at hf
  rw [hf]
  rfl

lemma endsFresh_appendSeg (hS : ∀ p, p ≠ .loopBound → S p) {seg : Segment} (hseg : seg.label = none) :
    EndsFresh S tx (tx.appendSeg seg) := by
  apply (ends_appendSeg hS seg).bind
  rintro ⟨full, q⟩ happ
  apply endsFresh_emitIf hS happ
  intro f hf
  rw [Multiset.mem_coe, List.mem_singleton] at hf
  rw [hf]
  exact hseg

lemma endsFresh_sendClose (hS : ∀ p, p ≠ .loopBound → S p) {i docNo : ℕ} {entry : SendDocMutable} {variant : UInt8} :
    EndsFresh S tx (sendClose tx i docNo entry variant) := by
  unfold sendClose
  split
  · exact EndsFresh.of_stock (endsFresh_appendControl hS variant docNo) rfl
  · exact EndsFresh.refl tx

lemma endsFresh_sendSeg (hS : ∀ p, p ≠ .loopBound → S p) {i : ℕ} {entry : SendDocMutable} {seg : Segment} {doc : SendDoc}
    (hseg : seg.label = none) : EndsFresh S tx (sendSeg tx i entry seg doc) :=
  .of_stock (endsFresh_appendSeg hS hseg) rfl

lemma ends_slot (hS : S .arith) {ε : Type} {P : ε → Prop} {docNo len : ℕ} :
    Ends S P (fun i => i = (docNo >>> 1) % len) (slot docNo len) := by
  unfold slot
  split
  · exact hS
  · exact rfl

lemma ends_entryAt (hS : S .index) {ε α : Type} {P : ε → Prop} {table : List α} {i : ℕ} :
    Ends S P (fun x => table[i]? = some x) (entryAt table i) := by
  unfold entryAt
  split
  · assumption
  · exact hS

lemma endsFresh_sendRetry (hS : ∀ p, p ≠ .loopBound → S p) {i docNo : ℕ} : EndsFresh S tx (sendRetry tx i docNo) := by
  unfold sendRetry
  apply (ends_entryAt (hS _ (by decide))).bind
  intro entry _
  split
  · apply (ends_remainingCap hS).bind
    intro cap _
    apply (Segment.ends_tryNew hS).bind
    rintro (_ | ⟨seg, doc⟩) hnew
    · exact EndsFresh.refl tx
    · exact endsFresh_sendSeg hS (hnew _ rfl).label
  · exact endsFresh_sendClose hS

lemma endsFresh_sendSending (hS : ∀ p, p ≠ .loopBound → S p) {docNo : ℕ} : EndsFresh S tx (sendSending tx docNo) := by
  unfold sendSending
  apply (ends_slot (hS _ (by decide))).bind
  intro i _
  apply (ends_entryAt (hS _ (by decide))).bind
  intro entry _
  split
  · exact EndsFresh.refl tx
  split
  swap
  · exact endsFresh_sendClose hS
  apply (ends_remainingCap hS).bind
  intro cap _
  apply (Segment.ends_tryNew hS).bind
  rintro ((_ | _) | ⟨seg, doc⟩) hnew
  · exact endsFresh_sendClose hS
  · have hl : Leaves (T := T) (fun s => { s with sendQueue := docNo :: s.sendQueue }) [] :=
      ⟨fun _ => (List.append_nil _).symm, fun _ => rfl⟩
    have hnone : Fresh 0 := fun _ hf => absurd hf (Multiset.notMem_zero _)
    apply (ends_emit hS hl).bind_imp
    · intro out hout
      exact ⟨0, hnone, hout⟩
    · rintro tx' ⟨hgrow, -⟩
      exact EndsFresh.after hnone hgrow (endsFresh_sendRetry hS)
  · exact endsFresh_sendSeg hS (hnew _ rfl).label

lemma endsFresh_sendReceiving (hS : ∀ p, p ≠ .loopBound → S p) {docNo : ℕ} : EndsFresh S tx (sendReceiving tx docNo) := by
  unfold sendReceiving
  apply (ends_slot (hS _ (by decide))).bind
  intro i _
  apply (ends_entryAt (hS _ (by decide))).bind
  intro entry _
  split
  · exact EndsFresh.refl tx
  · exact EndsFresh.of_stock (endsFresh_appendControl hS _ docNo) rfl

lemma endsFresh_sendDocs (hS : ∀ p, p ≠ .loopBound → S p) {docs : List ℕ} : EndsFresh S tx (sendDocs docs tx) := by
  induction docs generalizing tx with
  | nil => exact EndsFresh.refl tx
  | cons docNo docs ih =>
    have hdoc : EndsFresh S tx (sendDoc { tx with session := { tx.session with sendQueue := docs } } docNo) := by
      unfold sendDoc
      split
      · exact EndsFresh.of_stock (endsFresh_sendSending hS) rfl
      · exact EndsFresh.of_stock (endsFresh_sendReceiving hS) rfl
    apply Ends.bind hdoc
    rintro tx' ⟨ps, hps, hgrow⟩
    exact EndsFresh.after hps hgrow ih

end Documents

lemma ends_encryptPacket (hS : ∀ p, p ≠ .loopBound → S p) {ε : Type} {P : ε → Prop} {s : SessionInner T} {pass : Pass T} {binding : Option (Bool × UInt32)}
    {buf : Bytes} : Ends S P (fun _ => True) (encryptPacket s pass binding buf) := by
  unfold encryptPacket
  split
  · apply (ends_entryAt (hS _ (by decide))).bind
    intro socketData _
    split
    · trivial
    · trivial
  · exact (ends_entryAt (hS _ (by decide))).bind fun _ _ => trivial

section Pass

variable [LT T] [DecidableLT T] {pass : Pass T} {rto : T} {out : Sent T}

/-- What is in the hands of a pass that took out of `tx` what timed out. -/
def Held (rto : T) (tx : Tx T) (a : Stock T) : Prop :=
  ∃ ps ns, Parts (resent rto tx.session) ps ∧ Fresh ns ∧ Grows ((drained rto tx).stock none) a (ps + ns)

/-- What a pass leaves behind that took out of `tx` what timed out: the payloads it puts into the queue are
packets that it sent. -/
structure Passed (rto : T) (tx : Tx T) (out : Sent T) : Prop where
  frames : ∃ ps ns, Parts (resent rto tx.session) ps ∧ Fresh ns ∧ out.stock.frames = (tx.stock none).frames + (ps + ns)
  records : out.stock.records = (tx.stock none).records
  stable : ∀ I, Stable I → (∀ p ∈ (tx.stock none).packets, I p) → ∀ p ∈ out.stock.packets, I p
  sockets : out.session.sockets = tx.session.sockets
  queue : ∃ sent : List (SentPayload T), out.session.packetQueue = unexpired rto tx.session.packetQueue ++ sent ∧
    ∀ payload ∈ sent, ∃ p ∈ out.stock.packets, payload.elicitingFrames = p.elicitingFrames

lemma Held.queue {a : Stock T} (h : Held rto tx a) : a.flight.1 = unexpired rto tx.session.packetQueue := by
  obtain ⟨ps, ns, -, -, hgrow⟩ := h
  exact (congrArg Prod.fst hgrow.flight).trans (drainExpired_queue none)

lemma Held.passed {a : Stock T} {sent : List (SentPayload T)} (h : Held rto tx a) (hpackets : out.stock.packets = a.packets)
    (horphans : out.stock.orphans = a.orphans) (hsockets : out.session.sockets = a.flight.2.2)
    (hqueue : out.session.packetQueue = a.flight.1 ++ sent)
    (hsent : ∀ payload ∈ sent, ∃ p ∈ out.stock.packets, payload.elicitingFrames = p.elicitingFrames) :
    Passed rto tx out := by
  obtain ⟨ps, ns, hps, hns, hgrow⟩ := h
  refine ⟨⟨ps, ns, hps, hns, ?_⟩, ?_, ?_, ?_, sent, ?_, hsent⟩
  · rw [Stock.frames, hpackets, horphans]
    exact hgrow.frames
  · rw [Stock.records, hpackets]
    exact hgrow.records
  · rw [hpackets]
    exact hgrow.stable
  · rw [hsockets]
    exact congrArg (fun x => x.2.2) hgrow.flight
  · rw [hqueue, Held.queue ⟨ps, ns, hps, hns, hgrow⟩]

lemma Held.passed_early (h : Held rto tx out.stock) : Passed rto tx out :=
  h.passed rfl rfl rfl (List.append_nil _).symm fun _ hp => absurd hp List.not_mem_nil

lemma ends_finish (hS : ∀ p, p ≠ .loopBound → S p) {P : Sent T → Prop} {tx' : Tx T} (h : Held rto tx (tx'.stock none))
    (hs : ∀ p ∈ (tx.stock none).packets, p.Sound) : Ends S P (Passed rto tx) (finish tx' pass) := by
  have hpacket : tx'.packet ∈ (tx'.stock none).packets := List.mem_append_right _ List.mem_cons_self
  unfold finish
  split
  · rename_i hempty
    obtain ⟨ps, ns, -, -, hgrow⟩ := h
    exact absurd (List.isEmpty_iff.mp hempty) (hgrow.sound hs _ hpacket).nonempty
  · unfold sendNow
    rw [bind_assoc]
    apply (ends_encryptPacket hS).bind
    rintro ⟨uid, datagram⟩ _
    apply h.passed rfl rfl rfl rfl
    intro payload hp
    exact ⟨tx'.packet, hpacket, by rw [List.mem_singleton.mp hp]⟩

lemma ends_afterAcks (hS : ∀ p, p ≠ .loopBound → S p) (hs : ∀ p ∈ (tx.stock none).packets, p.Sound) :
    Ends S (Passed pass.rto tx) (Passed pass.rto tx) (do
      let tx ← resendLoop pass.rto (tx.session.packetQueue.length + 1) tx
      let tx ← sendDocs tx.session.sendQueue tx
      finish tx pass) := by
  have hnone : Fresh 0 := fun _ hf => absurd hf (Multiset.notMem_zero _)
  apply (ends_resendLoop hS).bind_imp
  · rintro out ⟨ps, hps, hout⟩
    exact Held.passed_early ⟨ps, 0, hps, hnone, by rwa [add_zero]⟩
  · rintro tx₁ ⟨ps, hps, hgrow⟩
    apply (endsFresh_sendDocs hS).bind_imp
    · rintro out ⟨ns, hns, hout⟩
      exact Held.passed_early ⟨ps, ns, hps, hns, hgrow.trans hout⟩
    · rintro tx₂ ⟨ns, hns, hout⟩
      exact ends_finish hS ⟨ps, ns, hps, hns, hgrow.trans hout⟩ hs

/-- The pass is over before it looks at what timed out. -/
def SpentOnAcks (s : SessionInner T) (pass : Pass T) : Prop :=
  pass.packetBudget = 0 ∨ ∃ out, appendAcks 0 s.sockets.1 (start s pass) = err out

variable {s : SessionInner T}

/-- How a pass can end: at once, while it writes acks, or after that. -/
inductive Transmitted (s : SessionInner T) (pass : Pass T) (out : Sent T) : Prop
  | nothing (hbudget : pass.packetBudget = 0) (hout : out = ⟨s, [], none⟩)
  | acks (k : ℕ) (hbudget : pass.packetBudget ≠ 0) (hout : appendAcks 0 s.sockets.1 (start s pass) = err out)
      (h : Acked s k out.session out.stock.packets)
  | passed (tx : Tx T) (k : ℕ) (hbudget : pass.packetBudget ≠ 0) (htx : appendAcks 0 s.sockets.1 (start s pass) = .ok tx)
      (h : Acked s k tx.session (tx.stock none).packets) (hout : Passed pass.rto tx out)

lemma ends_runPass (hS : ∀ p, p ≠ .loopBound → S p) (hbudget : pass.packetBudget ≠ 0) :
    Ends S (Transmitted s pass) (Transmitted s pass) (runPass s pass) := by
  have hacks := endsAcked hS s pass
  unfold runPass
  rcases hx : appendAcks 0 s.sockets.1 (start s pass) with (p | out) | tx
  · exact hacks.panic hx
  · obtain ⟨k, hk⟩ := hacks.err hx
    exact .acks k hbudget hx hk
  · obtain ⟨k, hk⟩ := hacks.ok hx
    rw [ok_bind]
    apply (ends_afterAcks hS fun p hp => (hk.packets p hp).sound).imp
    · intro out hout
      exact .passed tx k hbudget hx hk hout
    · intro out hout
      exact .passed tx k hbudget hx hk hout

lemma ends_transmit (hS : ∀ p, p ≠ .loopBound → S p) {ε : Type} {P : ε → Prop} :
    Ends S P (Transmitted s pass) (transmit s pass) := by
  unfold transmit
  split
  · exact .nothing ‹_› rfl
  · have hends := ends_runPass (s := s) hS ‹_›
    rcases hx : runPass s pass with (p | out) | out
    · exact hends.panic hx
    · exact hends.err hx
    · exact hends.ok hx

lemma transmitted {ε : Type} (h : (transmit s pass : Outcome ε (Sent T)) = .ok out) : Transmitted s pass out :=
  (ends_transmit (S := fun _ => True) (P := fun _ => True) fun _ _ => trivial).ok h

end Pass

end SessionInner

end Pqsnet.Session
