import Pqsnet.Session.Retransmission

/-! The first part of a pass: the acks of every socket go into packets that are bound to it. -/

namespace Pqsnet.Session

open Checked Outcome Stock

variable {T : Type}

namespace PacketBuilder

variable {p q : PacketBuilder}

/-- The acks in a packet that came from one of the sockets. -/
def acksOf (i : Bool) (p : PacketBuilder) : Multiset UInt32 :=
  ((p.acks.filter (·.1 = i)).flatMap Prod.snd : List UInt32)

/-- The frames `ds` stand behind the header, and they are the acks of the packet. -/
def AckFrames (p : PacketBuilder) (ds : List AckRuns.Frame) : Prop :=
  List.replicate Protocol.headerLen 0 ++ ds.flatMap AckRuns.Frame.bytes <+: p.buf ∧
    ds.flatMap AckRuns.Frame.acks = p.acks.flatMap Prod.snd

lemma stable_ackFrames : Stable fun p => ∃ ds, p.AckFrames ds := by
  refine ⟨fun mtu => ⟨[], List.prefix_refl _, rfl⟩, fun p fs q h => ?_⟩
  rintro ⟨ds, hbuf, hacks⟩
  have ha : q.acks = p.acks := congrArg (fun x => x.2.2) h.fixed
  exact ⟨ds, hbuf.trans h.buf, by rw [ha, hacks]⟩

/-- Every ack came from the socket that the packet is bound to. -/
def Own (p : PacketBuilder) : Prop := ∀ a ∈ p.acks, ∃ id, p.socketBinding = some (a.1, id)

lemma stable_own : Stable Own := by
  refine ⟨fun mtu a ha => absurd ha List.not_mem_nil, fun p fs q h hp a ha => ?_⟩
  have hacks : q.acks = p.acks := congrArg (fun x => x.2.2) h.fixed
  have hbind : q.socketBinding = p.socketBinding := congrArg (fun x => x.2.1) h.fixed
  rw [hbind]
  exact hp a (hacks ▸ ha)

/-- The binding is to a socket of `s`. -/
def BoundTo (s : SessionInner T) (p : PacketBuilder) : Prop :=
  ∀ b ∈ p.socketBinding, ∃ (i : ℕ) (d : SocketData), s.sockets.1[i]? = some d ∧ b = (decide (i > 0), d.socket.localId)

lemma stable_boundTo (s : SessionInner T) : Stable (BoundTo s) := by
  refine ⟨fun mtu b hb => absurd hb (Option.not_mem_none b), fun p fs q h hp b hb => ?_⟩
  have hbind : q.socketBinding = p.socketBinding := congrArg (fun x => x.2.1) h.fixed
  exact hp b (hbind ▸ hb)

/-- A packet that holds nothing but acks. -/
structure OnlyAcks (s : SessionInner T) (p : PacketBuilder) : Prop where
  frames : p.elicitingFrames = []
  nonempty : p.buf ≠ []
  bound : p.BoundTo s
  bytes : (∀ d ∈ s.sockets.1, SortedAcks d.acks) → ∃ ds : List AckRuns.Frame,
    p.buf = List.replicate Protocol.headerLen 0 ++ ds.flatMap AckRuns.Frame.bytes ∧
    ds.flatMap AckRuns.Frame.acks = p.acks.flatMap Prod.snd

lemma onlyAcks_new (s : SessionInner T) (mtu : ℕ) : OnlyAcks s (new mtu) :=
  ⟨rfl, List.cons_ne_nil _ _, (stable_boundTo s).new mtu, fun _ => ⟨[], rfl, rfl⟩⟩

lemma OnlyAcks.sound {s : SessionInner T} (h : OnlyAcks s p) : p.Sound :=
  ⟨h.nonempty, fun _ hf => absurd hf (h.frames ▸ List.not_mem_nil)⟩

lemma OnlyAcks.ackFrames {s : SessionInner T} (h : OnlyAcks s p) (hs : ∀ d ∈ s.sockets.1, SortedAcks d.acks) :
    ∃ ds, p.AckFrames ds := by
  obtain ⟨ds, hbuf, hacks⟩ := h.bytes hs
  exact ⟨ds, hbuf ▸ List.prefix_refl _, hacks⟩

variable {s : SessionInner T} {i : ℕ} {d : SocketData} {acks taken : List UInt32} {r : Bool × PacketBuilder × List UInt32}

lemma OnlyAcks.append (h : OnlyAcks s p) (hd : s.sockets.1[i]? = some d)
    (ha : AcksAppended p d.acks (decide (i > 0)) d.socket.localId taken r) : OnlyAcks s r.2.1 := by
  refine ⟨ha.frames.trans h.frames, fun hnil => h.nonempty (List.prefix_nil.mp (hnil ▸ ha.buf)), fun b hb => ?_, fun hs => ?_⟩
  · by_cases ht : taken = []
    · have hbind : r.2.1.socketBinding = p.socketBinding := congrArg (fun x => x.2.1) (ha.unbound ht)
      exact h.bound b (hbind ▸ hb)
    · rw [(ha.bound ht).1, Option.mem_some_iff] at hb
      exact ⟨i, d, hd, hb.symm⟩
  · obtain ⟨ds, hbuf, hacks⟩ := h.bytes hs
    obtain ⟨es, hbuf', htaken⟩ := ha.bytes (hs d (List.mem_of_getElem? hd))
    refine ⟨ds ++ es, by rw [hbuf', hbuf, List.flatMap_append, List.append_assoc], ?_⟩
    rw [List.flatMap_append, hacks, htaken]
    by_cases ht : taken = []
    · have hsame : r.2.1.acks = p.acks := congrArg (fun x => x.2.2) (ha.unbound ht)
      rw [ht, List.append_nil, hsame]
    · rw [(ha.bound ht).2, List.flatMap_append, List.flatMap_cons, List.flatMap_nil, List.append_nil]

lemma AcksAppended.acksOf {idx : Bool} {uid : UInt32} (ha : AcksAppended p acks idx uid taken r) (j : Bool) :
    r.2.1.acksOf j = p.acksOf j + if idx = j then (taken : Multiset UInt32) else 0 := by
  unfold PacketBuilder.acksOf
  by_cases ht : taken = []
  · have hsame : r.2.1.acks = p.acks := congrArg (fun x => x.2.2) (ha.unbound ht)
    rw [hsame, ht, Multiset.coe_nil, ite_self, add_zero]
  · rw [(ha.bound ht).2, List.filter_append, List.flatMap_append, ← Multiset.coe_add]
    split
    · rename_i hij
      simp [hij]
    · rename_i hij
      simp [hij]

end PacketBuilder

lemma toNat_decide_pos {i : ℕ} (h : i < 2) : (decide (i > 0)).toNat = i := by
  interval_cases i <;> rfl

open PacketBuilder

/-- The acks of a socket in a list of packets. -/
def acksIn (i : Bool) (packets : List PacketBuilder) : Multiset UInt32 := (packets.map (PacketBuilder.acksOf i)).sum

@[simp] lemma acksIn_append (i : Bool) (l l' : List PacketBuilder) : acksIn i (l ++ l') = acksIn i l + acksIn i l' := by
  rw [acksIn, List.map_append, List.sum_append]
  rfl

@[simp] lemma acksIn_nil (i : Bool) : acksIn i [] = 0 := rfl

@[simp] lemma acksIn_singleton (i : Bool) (p : PacketBuilder) : acksIn i [p] = p.acksOf i := by
  rw [acksIn, List.map_singleton, List.sum_singleton]

@[simp] lemma acksOf_new (i : Bool) (mtu : ℕ) : (PacketBuilder.new mtu).acksOf i = 0 := rfl

namespace SessionInner

variable {s session : SessionInner T} {i : ℕ} {packets : List PacketBuilder} {p : PacketBuilder} {d : SocketData}

/-- What is left of the acks of `s`, and what is in packets. -/
def Once (s session : SessionInner T) (packets : List PacketBuilder) : Prop :=
  ∀ j d, s.sockets.1[j]? = some d → ∃ d', session.sockets.1[j]? = some d' ∧
    (d.acks : Multiset UInt32) = acksIn (decide (j > 0)) packets + d'.acks

/-- After the sockets before `i`. -/
structure Acked (s : SessionInner T) (i : ℕ) (session : SessionInner T) (packets : List PacketBuilder) : Prop where
  orphans : session.orphans = s.orphans
  queue : session.packetQueue = s.packetQueue
  unacked : session.unackedPackets = s.unackedPackets
  ahead : ∀ j, i ≤ j → session.sockets.1[j]? = s.sockets.1[j]?
  once : Once s session packets
  packets : ∀ p ∈ packets, OnlyAcks s p

lemma acked_start (s : SessionInner T) (pass : Pass T) : Acked s 0 s ((start s pass).stock none).packets := by
  refine ⟨rfl, rfl, rfl, fun _ _ => rfl, fun j d hd => ⟨d, hd, ?_⟩, fun p hp => ?_⟩
  · simp [Tx.stock, start]
  · rw [List.mem_singleton.mp hp]
    exact onlyAcks_new s s.mtu

lemma Acked.push (h : Acked s i session packets) (mtu : ℕ) : Acked s i session (packets ++ [.new mtu]) := by
  refine ⟨h.orphans, h.queue, h.unacked, h.ahead, fun j d hd => ?_, fun p hp => ?_⟩
  · obtain ⟨d', hd', hacks⟩ := h.once j d hd
    exact ⟨d', hd', by simpa using hacks⟩
  · rcases List.mem_append.mp hp with hp | hp
    · exact h.packets p hp
    · rw [List.mem_singleton.mp hp]
      exact onlyAcks_new s mtu

lemma Acked.step {taken : List UInt32} {r : Bool × PacketBuilder × List UInt32} (h : Acked s i session (packets ++ [p]))
    (hd : s.sockets.1[i]? = some d) (ha : AcksAppended p d.acks (decide (i > 0)) d.socket.localId taken r) :
    Acked s (i + 1) (session.setAcks i r.2.2) (packets ++ [r.2.1]) := by
  have hlen := s.sockets.2
  have hi := (List.getElem?_eq_some_iff.mp hd).1
  have hsession := (h.ahead i le_rfl).trans hd
  refine ⟨h.orphans, h.queue, h.unacked, fun j hj => ?_, fun j e he => ?_, fun p' hp => ?_⟩
  · rw [← h.ahead j (by omega)]
    exact List.getElem?_modify_ne _ _ (by omega)
  · have hj := (List.getElem?_eq_some_iff.mp he).1
    obtain ⟨e', he', hacks⟩ := h.once j e he
    rw [acksIn_append, acksIn_singleton] at hacks
    by_cases hij : i = j
    · -- the socket whose acks were taken
      subst hij
      obtain rfl : d = e := Option.some.inj (hd.symm.trans he)
      obtain rfl : d = e' := Option.some.inj (hsession.symm.trans he')
      refine ⟨{ d with acks := r.2.2 }, ?_, ?_⟩
      · exact (List.getElem?_modify_eq _ _ _).trans (by rw [hsession]; rfl)
      · have hsplit : (d.acks : Multiset UInt32) = (taken : Multiset UInt32) + (r.2.2 : Multiset UInt32) := by
          rw [Multiset.coe_add, ← ha.split]
        have hnone : acksIn (decide (i > 0)) packets + p.acksOf (decide (i > 0)) = 0 := by
          simpa using hacks
        rw [acksIn_append, acksIn_singleton, ha.acksOf, if_pos rfl, ← add_assoc, hnone, zero_add]
        exact hsplit
    · have hne : decide (i > 0) ≠ decide (j > 0) := by
        rw [ne_eq, decide_eq_decide]
        omega
      refine ⟨e', ?_, ?_⟩
      · exact (List.getElem?_modify_ne _ _ hij).trans he'
      · rw [acksIn_append, acksIn_singleton, ha.acksOf, if_neg hne, add_zero]
        exact hacks
  · rcases List.mem_append.mp hp with hp | hp
    · exact h.packets p' (List.mem_append_left _ hp)
    · rw [List.mem_singleton.mp hp]
      exact (h.packets p (List.mem_append_right _ (List.mem_singleton_self p))).append hd ha

variable {S : Panic → Prop} {tx : Tx T}

lemma ends_emitIf_acked (hS : ∀ p, p ≠ .loopBound → S p) {full : Bool} (h : Acked s i tx.session (tx.queued ++ [tx.packet])) :
    Ends S (fun out => Acked s i out.session out.stock.packets)
      (fun tx' => Acked s i tx'.session (tx'.queued ++ [tx'.packet])) (Tx.emitIf full tx id none) := by
  unfold Tx.emitIf
  split
  swap
  · exact h
  unfold Tx.emit
  apply Ends.bind (ends_sub (Q := fun _ => True) (hS _ (by decide)) fun _ => trivial)
  intro budget _
  dsimp only
  split
  · simpa [Sent.stock] using h
  · exact h.push _

lemma ends_appendAcks (hS : ∀ p, p ≠ .loopBound → S p) {sockets : List SocketData} (hs : sockets = s.sockets.1.drop i)
    (h : Acked s i tx.session (tx.queued ++ [tx.packet])) :
    Ends S (fun out => ∃ k, Acked s k out.session out.stock.packets)
      (fun tx' => ∃ k, Acked s k tx'.session (tx'.queued ++ [tx'.packet])) (appendAcks i sockets tx) := by
  induction sockets generalizing i tx with
  | nil => exact ⟨i, h⟩
  | cons d sockets ih =>
    have hd : s.sockets.1[i]? = some d := by
      rw [← Nat.add_zero i, ← List.getElem?_drop, ← hs]
      rfl
    have hrest : sockets = s.sockets.1.drop (i + 1) := by
      rw [← List.drop_drop, ← hs]
      rfl
    apply (ends_appendSortedAcks hS).bind
    rintro ⟨full, q, acks⟩ ⟨taken, ha⟩
    apply (ends_emitIf_acked hS (h.step hd ha)).bind_imp
    · intro out hout
      exact ⟨i + 1, hout⟩
    · intro tx' htx'
      exact ih hrest htx'

lemma endsAcked (hS : ∀ p, p ≠ .loopBound → S p) (s : SessionInner T) (pass : Pass T) :
    Ends S (fun out => ∃ k, Acked s k out.session out.stock.packets)
      (fun tx => ∃ k, Acked s k tx.session (tx.stock none).packets) (appendAcks 0 s.sockets.1 (start s pass)) :=
  ends_appendAcks hS rfl (acked_start s pass)

lemma Acked.frames (h : Acked s i tx.session (tx.stock none).packets) : (tx.stock none).frames = s.orphans := by
  have hnil : (tx.stock none).packets.flatMap PacketBuilder.elicitingFrames = [] :=
    List.flatMap_eq_nil_iff.mpr fun p hp => (h.packets p hp).frames
  rw [Stock.frames, hnil, Multiset.coe_nil, zero_add]
  exact congrArg _ h.orphans

end SessionInner

end Pqsnet.Session
