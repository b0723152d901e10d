import Pqsnet.Session.Append
import Pqsnet.Session.Send

/-! Which frames a pass sends again, and which it loses. -/

namespace Pqsnet.Session

open Checked Outcome PacketBuilder

variable {T : Type}

/-- The payloads in flight, the ids that are not acknowledged, and the sockets. -/
def SessionInner.flight (s : SessionInner T) : List (SentPayload T) × Finset ℕ × ArrayVec SocketData 2 :=
  (s.packetQueue, s.unackedPackets, s.sockets)

/-- What a pass has in its hands: packets, frames without a packet, and what is in flight. -/
structure Stock (T : Type) where
  packets : List PacketBuilder
  orphans : List ElicitingFrame
  flight : List (SentPayload T) × Finset ℕ × ArrayVec SocketData 2

namespace Stock

variable {a b c : Stock T} {fs gs : Multiset ElicitingFrame}

def frames (a : Stock T) : Multiset ElicitingFrame :=
  (a.packets.flatMap PacketBuilder.elicitingFrames : Multiset ElicitingFrame) + a.orphans

/-- The acks in the packets, and what they are bound to. -/
def records (a : Stock T) : Multiset (Option (Bool × UInt32) × List (Bool × List UInt32)) :=
  a.packets.filterMap PacketBuilder.ackRecord

/-- From `a` to `b`, exactly the frames `fs` came in. -/
structure Grows (a b : Stock T) (fs : Multiset ElicitingFrame) : Prop where
  frames : b.frames = a.frames + fs
  records : b.records = a.records
  stable : ∀ I, Stable I → (∀ p ∈ a.packets, I p) → ∀ p ∈ b.packets, I p
  flight : b.flight = a.flight

lemma Grows.trans (h : Grows a b fs) (h' : Grows b c gs) : Grows a c (fs + gs) :=
  ⟨by rw [h'.frames, h.frames, add_assoc], h'.records.trans h.records, fun I hI ha => h'.stable I hI (h.stable I hI ha),
    h'.flight.trans h.flight⟩

lemma Grows.refl (a : Stock T) : Grows a a 0 := ⟨(add_zero _).symm, rfl, fun _ _ => id, rfl⟩

lemma Grows.sound (h : Grows a b fs) (ha : ∀ p ∈ a.packets, p.Sound) : ∀ p ∈ b.packets, p.Sound :=
  h.stable _ stable_sound ha

end Stock

open Stock

/-- `temp` is a packet that is put aside. -/
def Tx.stock (tx : Tx T) (temp : Option PacketBuilder) : Stock T :=
  ⟨tx.queued ++ tx.packet :: temp.toList, tx.session.orphans, tx.session.flight⟩

def Sent.stock (out : Sent T) : Stock T :=
  ⟨out.queued ++ (out.sentNow.map Prod.fst).toList, out.session.orphans, out.session.flight⟩

section Emit

variable {tx : Tx T} {fs orphans : List ElicitingFrame} {q : PacketBuilder} {full : Bool} {S : Panic → Prop}
  {last : SessionInner T → SessionInner T} {temp : Option PacketBuilder}

lemma Tx.grows_append (h : Appended tx.packet fs q) : Grows (tx.stock temp) (Tx.stock { tx with packet := q } temp) fs := by
  refine ⟨?_, ?_, fun I hI hs p hp => ?_, rfl⟩
  · simp only [Stock.frames, Tx.stock, List.flatMap_append, List.flatMap_cons, h.frames, ← Multiset.coe_add]
    abel
  · simp only [Stock.records, Tx.stock, List.filterMap_append, List.filterMap_cons, h.ackRecord]
  · simp only [Tx.stock, List.mem_append, List.mem_cons] at hs hp
    rcases hp with hp | rfl | hp
    · exact hs p (.inl hp)
    · exact hI.append _ _ _ h (hs _ (.inr (.inl rfl)))
    · exact hs p (.inr (.inr hp))

/-- What is done before a pass returns early. -/
structure Leaves (last : SessionInner T → SessionInner T) (orphans : List ElicitingFrame) : Prop where
  orphans : ∀ s, (last s).orphans = s.orphans ++ orphans
  flight : ∀ s, (last s).flight = s.flight

lemma leaves_id : Leaves (T := T) id [] := ⟨fun _ => (List.append_nil _).symm, fun _ => rfl⟩

lemma leaves_addOrphans : Leaves (T := T) (SessionInner.addOrphans fs) fs := ⟨fun _ => rfl, fun _ => rfl⟩

lemma ends_emit (hS : ∀ p, p ≠ .loopBound → S p) (hl : Leaves last orphans) :
    Ends S (fun out => Grows (tx.stock temp) out.stock orphans) (fun tx' => Grows (tx.stock temp) (tx'.stock temp) 0 ∧
      tx'.packetBudget < tx.packetBudget ∧ tx'.packet = .new tx.session.mtu) (tx.emit last temp) := by
  unfold Tx.emit
  apply Ends.bind (ends_sub (Q := fun n => n < tx.packetBudget) (hS _ (by decide)) fun _ => by omega)
  intro n hn
  dsimp only
  split
  · refine ⟨?_, ?_, fun I hI hs p hp => hs p ?_, hl.flight _⟩
    · simp only [Stock.frames, Tx.stock, Sent.stock, hl.orphans, List.flatMap_append, List.flatMap_cons,
        ← Multiset.coe_add, Option.map_none, Option.toList_none, List.flatMap_nil, Multiset.coe_nil]
      abel
    · simp [Stock.records, Tx.stock, Sent.stock]
    · simpa [Tx.stock, Sent.stock] using hp
  · refine ⟨⟨?_, ?_, fun I hI hs p hp => ?_, rfl⟩, hn, rfl⟩
    · simp only [Stock.frames, Tx.stock, List.flatMap_append, List.flatMap_cons, ← Multiset.coe_add, new,
        List.flatMap_nil, Multiset.coe_nil]
      abel
    · simp [Stock.records, Tx.stock, List.filterMap_cons, ackRecord_new]
    · simp only [Tx.stock, List.mem_append, List.mem_cons, List.not_mem_nil, or_false] at hs hp
      rcases hp with (hp | rfl) | rfl | hp
      · exact hs p (.inl hp)
      · exact hs _ (.inr (.inl rfl))
      · exact hI.new _
      · exact hs p (.inr (.inr hp))

lemma ends_emitIf (hS : ∀ p, p ≠ .loopBound → S p) (hl : Leaves last orphans) (h : Appended tx.packet fs q) :
    Ends S (fun out => Grows (tx.stock temp) out.stock (fs + orphans)) (fun tx' => Grows (tx.stock temp) (tx'.stock temp) fs ∧
      tx'.packetBudget + full.toNat ≤ tx.packetBudget) (Tx.emitIf full { tx with packet := q } last temp) := by
  have happ : Grows (tx.stock temp) (Tx.stock { tx with packet := q } temp) fs := Tx.grows_append h
  unfold Tx.emitIf
  split
  · rename_i hfull
    apply (ends_emit hS hl).imp
    · intro out hout
      exact happ.trans hout
    · rintro tx' ⟨hgrow, hlt, -⟩
      rw [hfull]
      exact ⟨by simpa using happ.trans hgrow, hlt⟩
  · rename_i hfull
    rw [Bool.not_eq_true] at hfull
    rw [hfull]
    exact ⟨happ, le_rfl⟩

end Emit

/-- A segment in the parts that it was sent in. -/
inductive Pieces : Segment → List Segment → Prop
  | whole (seg : Segment) : Pieces seg [seg]
  | cut {seg a r : Segment} {l : List Segment} (h : Segment.Cut seg a r) (hl : Pieces r l) : Pieces seg (a :: l)

/-- Frames, some of whose segments were cut into pieces. -/
inductive Parts : List ElicitingFrame → Multiset ElicitingFrame → Prop
  | nil : Parts [] 0
  | control {fs : List ElicitingFrame} {ps : Multiset ElicitingFrame} (variant : UInt8) (docNo : ℕ) (label : Option ℕ)
      (h : Parts fs ps) : Parts (.control variant docNo label :: fs) (.control variant docNo label ::ₘ ps)
  | seg {seg : Segment} {l : List Segment} {fs : List ElicitingFrame} {ps : Multiset ElicitingFrame}
      (hl : Pieces seg l) (h : Parts fs ps) : Parts (.seg seg :: fs) (l.map ElicitingFrame.seg + ps)

lemma Parts.refl (fs : List ElicitingFrame) : Parts fs fs := by
  induction fs with
  | nil => exact .nil
  | cons f fs ih =>
    cases f with
    | seg seg => exact .seg (.whole seg) ih
    | control variant docNo label => exact .control variant docNo label ih

namespace SessionInner

variable {S : Panic → Prop} {temp : Option PacketBuilder} {rest fs : List ElicitingFrame} {tx : Tx T}

lemma ends_resendSeg (hS : ∀ p, p ≠ .loopBound → S p) {fuel : ℕ} {seg : Segment}
    (hf : tx.packetBudget + seg.data.length < fuel) :
    Ends S (fun out => ∃ l, Pieces seg l ∧ Grows (tx.stock temp) out.stock (l.map ElicitingFrame.seg + rest))
      (fun tx' => ∃ l, Pieces seg l ∧ Grows (tx.stock temp) (tx'.stock temp) (l.map ElicitingFrame.seg))
      (resendSeg rest temp fuel tx seg) := by
  -- every round sends a packet or makes the segment shorter
  induction fuel generalizing tx seg with
  | zero => omega
  | succ fuel ih =>
    unfold resendSeg
    apply (ends_tryAppendSeg hS seg).bind
    rintro ⟨full, o, q⟩ htried
    cases htried with
    | refused =>
      apply (ends_emitIf hS leaves_addOrphans (.refl tx.packet)).bind_imp
      · intro out hout
        exact ⟨[seg], .whole seg, by simpa using hout⟩
      · rintro tx' ⟨hgrow, hle⟩
        have hlt : tx'.packetBudget + 1 ≤ tx.packetBudget := hle
        apply (ih (by omega)).imp
        · rintro out ⟨l, hl, hout⟩
          exact ⟨l, hl, by simpa using hgrow.trans hout⟩
        · rintro tx'' ⟨l, hl, hout⟩
          exact ⟨l, hl, by simpa using hgrow.trans hout⟩
    | part hcut happ =>
      have hlt := hcut.length_lt
      apply (ends_emitIf hS leaves_addOrphans happ).bind_imp
      · intro out hout
        exact ⟨_, .cut hcut (.whole _), by simpa using hout⟩
      · rintro tx' ⟨hgrow, hle⟩
        apply (ih (by omega)).imp
        · rintro out ⟨l, hl, hout⟩
          exact ⟨_, .cut hcut hl, by simpa using hgrow.trans hout⟩
        · rintro tx'' ⟨l, hl, hout⟩
          exact ⟨_, .cut hcut hl, by simpa using hgrow.trans hout⟩
    | whole happ =>
      apply (ends_emitIf hS leaves_addOrphans happ).bind_imp
      · intro out hout
        exact ⟨[seg], .whole seg, by simpa using hout⟩
      · rintro tx' ⟨hgrow, -⟩
        exact ⟨[seg], .whole seg, hgrow⟩

lemma ends_resendFrames (hS : ∀ p, p ≠ .loopBound → S p) :
    Ends S (fun out => ∃ ps, Parts fs ps ∧ Grows (tx.stock temp) out.stock ps)
      (fun tx' => ∃ ps, Parts fs ps ∧ Grows (tx.stock temp) (tx'.stock temp) ps) (resendFrames temp fs tx) := by
  induction fs generalizing tx with
  | nil => exact ⟨0, .nil, .refl _⟩
  | cons f fs ih =>
    cases f with
    | seg seg =>
      apply (ends_resendSeg hS (Nat.lt_succ_self _)).bind_imp
      · rintro out ⟨l, hl, hout⟩
        exact ⟨_, .seg hl (.refl fs), hout⟩
      · rintro tx' ⟨l, hl, hgrow⟩
        apply ih.imp
        · rintro out ⟨ps, hps, hout⟩
          exact ⟨_, .seg hl hps, hgrow.trans hout⟩
        · rintro tx'' ⟨ps, hps, hout⟩
          exact ⟨_, .seg hl hps, hgrow.trans hout⟩
    | control variant docNo label =>
      apply (ends_appendControl hS variant docNo label).bind
      rintro ⟨full, q⟩ happ
      apply (ends_emitIf hS leaves_addOrphans happ).bind_imp
      · intro out hout
        exact ⟨_, .control variant docNo label (.refl fs), hout⟩
      · rintro tx' ⟨hgrow, -⟩
        apply ih.imp
        · rintro out ⟨ps, hps, hout⟩
          exact ⟨_, .control variant docNo label hps, hgrow.trans hout⟩
        · rintro tx'' ⟨ps, hps, hout⟩
          exact ⟨_, .control variant docNo label hps, hgrow.trans hout⟩

lemma ends_ownPacket (hS : ∀ p, p ≠ .loopBound → S p) {P : Sent T → Prop} {n : ℕ} :
    Ends S P (fun _ => True) (ownPacket tx n) := by
  unfold ownPacket
  apply (ends_remainingCap hS).bind
  intro cap _
  split
  · unfold resendRatio
    split
    · trivial
    · exact hS _ (by decide)
  · trivial

lemma grows_aside (tx : Tx T) (mtu : ℕ) :
    Grows (tx.stock none) (Tx.stock { tx with packet := .new mtu } (some tx.packet)) 0 := by
  refine ⟨?_, ?_, fun I hI hs p hp => ?_, rfl⟩
  · simp only [Stock.frames, Tx.stock, List.flatMap_append, List.flatMap_cons, ← Multiset.coe_add, new,
      Option.toList_some, Option.toList_none, List.flatMap_nil, Multiset.coe_nil]
    abel
  · simp [Stock.records, Tx.stock, List.filterMap_cons, ackRecord_new]
  · simp only [Tx.stock, List.mem_append, List.mem_cons, Option.toList_some, Option.toList_none] at hs hp
    rcases hp with hp | rfl | hp
    · exact hs p (.inl hp)
    · exact hI.new mtu
    · exact hs p (.inr hp)

lemma grows_back {packet : PacketBuilder} {mtu : ℕ} (h : tx.packet = .new mtu) :
    Grows (tx.stock (some packet)) (Tx.stock { tx with packet := packet } none) 0 := by
  refine ⟨?_, ?_, fun I hI hs p hp => ?_, rfl⟩
  · simp only [Stock.frames, Tx.stock, List.flatMap_append, List.flatMap_cons, ← Multiset.coe_add, h, new,
      Option.toList_some, Option.toList_none, List.flatMap_nil, Multiset.coe_nil]
    abel
  · simp [Stock.records, Tx.stock, List.filterMap_cons, h, ackRecord_new]
  · simp only [Tx.stock, List.mem_append, List.mem_cons, Option.toList_some, Option.toList_none] at hs hp
    rcases hp with hp | hp
    · exact hs p (.inl hp)
    · exact hs p (.inr (.inr hp))

lemma ends_resendPayload (hS : ∀ p, p ≠ .loopBound → S p) {payload : SentPayload T} :
    Ends S (fun out => ∃ ps, Parts payload.elicitingFrames ps ∧ Grows (tx.stock none) out.stock ps)
      (fun tx' => ∃ ps, Parts payload.elicitingFrames ps ∧ Grows (tx.stock none) (tx'.stock none) ps)
      (resendPayload tx payload) := by
  unfold resendPayload
  apply (ends_ownPacket hS).bind
  intro own _
  split
  swap
  · exact ends_resendFrames hS
  have haside := grows_aside tx tx.session.mtu
  apply (ends_resendFrames hS).bind_imp
  · rintro out ⟨ps, hps, hout⟩
    exact ⟨ps, hps, by simpa using haside.trans hout⟩
  · rintro tx₁ ⟨ps, hps, hgrow⟩
    have hin := haside.trans hgrow
    apply (ends_emit hS leaves_id).bind_imp
    · intro out hout
      exact ⟨ps, hps, by simpa using hin.trans hout⟩
    · rintro tx₂ ⟨hemit, -, hnew⟩
      exact ⟨ps, hps, by simpa using (hin.trans hemit).trans (grows_back hnew)⟩

/-- The payloads whose ids are taken out of the unacknowledged ones, in order. An id is taken out once. -/
def removed (unacked : Finset ℕ) : List (SentPayload T) → List (SentPayload T)
  | [] => []
  | p :: ps => if p.packetUid ∈ unacked then p :: removed (unacked.erase p.packetUid) ps else removed unacked ps

lemma removed_sublist (unacked : Finset ℕ) (ps : List (SentPayload T)) : (removed unacked ps).Sublist ps := by
  induction ps generalizing unacked with
  | nil => exact .slnil
  | cons p ps ih =>
    unfold removed
    split
    · exact (ih _).cons_cons p
    · exact (ih _).cons p

section Queue

variable [LT T] [DecidableLT T] {rto : T} {queue : List (SentPayload T)} {unacked : Finset ℕ}

def expired (rto : T) (queue : List (SentPayload T)) : List (SentPayload T) := queue.takeWhile (·.sentAt < rto)

def unexpired (rto : T) (queue : List (SentPayload T)) : List (SentPayload T) := queue.dropWhile (·.sentAt < rto)

lemma drainExpired_queue (r : Option (SentPayload T)) : (drainExpired rto queue unacked r).1 = unexpired rto queue := by
  induction queue generalizing unacked r with
  | nil => rfl
  | cons p ps ih =>
    simp only [drainExpired, unexpired, List.dropWhile_cons, decide_eq_true_eq]
    split_ifs
    · exact ih _
    · exact ih _
    · rfl

/-- Of all the payloads that are removed, only the last one is kept. -/
lemma drainExpired_resend (rto : T) (queue : List (SentPayload T)) (unacked : Finset ℕ) (r : Option (SentPayload T)) :
    (drainExpired rto queue unacked r).2.2 = (removed unacked (expired rto queue)).getLast?.or r := by
  induction queue generalizing unacked r with
  | nil => rfl
  | cons p ps ih =>
    simp only [drainExpired, expired, List.takeWhile_cons, decide_eq_true_eq]
    split_ifs with hp hu
    · rw [ih, removed, if_pos hu, List.getLast?_cons, Option.some_or]
      rw [Option.or_some]
      rfl
    · rw [ih, removed, if_neg hu]
      rfl
    · rfl

lemma drainExpired_unexpired (rto : T) (queue : List (SentPayload T)) (unacked : Finset ℕ) :
    drainExpired rto (unexpired rto queue) unacked none = (unexpired rto queue, unacked, none) := by
  induction queue with
  | nil => rfl
  | cons p ps ih =>
    simp only [unexpired, List.dropWhile_cons, decide_eq_true_eq]
    split_ifs with hp
    · exact ih
    · rw [drainExpired, if_neg hp]

/-- The frames that are sent again: those of one payload at most. -/
def resent (rto : T) (s : SessionInner T) : List ElicitingFrame :=
  ((removed s.unackedPackets (expired rto s.packetQueue)).getLast?.map SentPayload.elicitingFrames).getD []

/-- The pass after everything that timed out was taken from the queue. -/
def drained (rto : T) (tx : Tx T) : Tx T :=
  let (queue, unacked, _) := drainExpired rto tx.session.packetQueue tx.session.unackedPackets none
  { tx with session := { tx.session with packetQueue := queue, unackedPackets := unacked } }

lemma resendLoop_of_drained {fuel : ℕ} (h : tx.session.packetQueue = unexpired rto queue) :
    resendLoop rto (fuel + 1) tx = .ok tx := by
  rw [resendLoop, h, drainExpired_unexpired, ← h]

/-- At most one payload is sent again, as the first round takes everything that timed out from the queue. -/
lemma resendLoop_eq (rto : T) (tx : Tx T) : resendLoop rto (tx.session.packetQueue.length + 1) tx =
    match (removed tx.session.unackedPackets (expired rto tx.session.packetQueue)).getLast? with
    | none => .ok (drained rto tx)
    | some payload => resendPayload (drained rto tx) payload := by
  have hlast := drainExpired_resend rto tx.session.packetQueue tx.session.unackedPackets none
  rw [Option.or_none] at hlast
  rw [resendLoop]
  change (match (drainExpired rto tx.session.packetQueue tx.session.unackedPackets none).2.2 with
    | none => Except.ok (drained rto tx)
    | some payload => _) = _
  rw [hlast]
  cases hr : (removed tx.session.unackedPackets (expired rto tx.session.packetQueue)).getLast? with
  | none => rfl
  | some payload =>
    change resendPayload (drained rto tx) payload >>= _ = resendPayload (drained rto tx) payload
    rcases hx : resendPayload (drained rto tx) payload with e | tx'
    · rfl
    obtain ⟨ps, -, hgrow⟩ := (ends_resendPayload (S := fun _ => True) fun _ _ => trivial).ok hx
    have hqueue : tx'.session.packetQueue = unexpired rto tx.session.packetQueue :=
      (congrArg Prod.fst hgrow.flight).trans (drainExpired_queue none)
    -- a payload was removed, so there is fuel for the round that finds nothing
    have hpos : 0 < tx.session.packetQueue.length := by
      have hmem := List.length_pos_of_mem (List.mem_of_getLast? hr)
      have hle := (removed_sublist tx.session.unackedPackets (expired rto tx.session.packetQueue)).length_le
      have htake := (List.takeWhile_prefix (l := tx.session.packetQueue) (decide <| ·.sentAt < rto)).length_le
      exact hmem.trans_le (hle.trans htake)
    obtain ⟨fuel, hfuel⟩ := Nat.exists_eq_add_of_lt hpos
    rw [zero_add] at hfuel
    rw [hfuel, ok_bind, resendLoop_of_drained hqueue]

lemma ends_resendLoop (hS : ∀ p, p ≠ .loopBound → S p) :
    Ends S (fun out => ∃ ps, Parts (resent rto tx.session) ps ∧ Grows ((drained rto tx).stock none) out.stock ps)
      (fun tx' => ∃ ps, Parts (resent rto tx.session) ps ∧ Grows ((drained rto tx).stock none) (tx'.stock none) ps)
      (resendLoop rto (tx.session.packetQueue.length + 1) tx) := by
  rw [resendLoop_eq, resent]
  cases (removed tx.session.unackedPackets (expired rto tx.session.packetQueue)).getLast? with
  | none => exact ⟨0, .nil, .refl _⟩
  | some payload => exact ends_resendPayload hS

end Queue

end SessionInner

end Pqsnet.Session
