import Pqsnet.Session.Accounting

/-! Whose acks a packet carries. A packet with room left goes from one socket to the next, which binds it
anew, and the peer then takes the acks of the first socket for acks of the second. -/

namespace Pqsnet.Session

open Checked Outcome PacketBuilder Stock

variable {T : Type}

section Records

variable {a : Stock T} {packets : List PacketBuilder}

/-- The part of a packet's record that came from one of the sockets. -/
def recordAcks (i : Bool) (r : Option (Bool × UInt32) × List (Bool × List UInt32)) : Multiset UInt32 :=
  ((r.2.filter (·.1 = i)).flatMap Prod.snd : List UInt32)

lemma acksIn_eq_records (i : Bool) (packets : List PacketBuilder) :
    acksIn i packets = ((packets.filterMap ackRecord).map (recordAcks i)).sum := by
  induction packets with
  | nil => rfl
  | cons p packets ih =>
    rw [← List.singleton_append, acksIn_append, acksIn_singleton, ih, List.filterMap_append, List.map_append,
      List.sum_append]
    congr 1
    cases hp : p.acks with
    | nil => simp [ackRecord, acksOf, hp]
    | cons b bs => simp [ackRecord, acksOf, recordAcks, hp]

lemma own_iff_records : (∀ p ∈ packets, p.Own) ↔
    ∀ r ∈ packets.filterMap ackRecord, ∀ b ∈ r.2, ∃ id, r.1 = some (b.1, id) := by
  refine ⟨fun h r hr b hb => ?_, fun h p hp b hb => ?_⟩
  · obtain ⟨p, hp, hrec⟩ := List.mem_filterMap.mp hr
    cases hacks : p.acks with
    | nil => simp [ackRecord, hacks] at hrec
    | cons c cs =>
      simp only [ackRecord, hacks, Option.some.injEq] at hrec
      subst hrec
      exact h p hp b (hacks ▸ hb)
  · cases hacks : p.acks with
    | nil => exact absurd (hacks ▸ hb) List.not_mem_nil
    | cons c cs =>
      have hrec : p.ackRecord = some (p.socketBinding, c :: cs) := by rw [ackRecord, hacks]
      exact h _ (List.mem_filterMap.mpr ⟨p, hp, hrec⟩) b (hacks ▸ hb)

end Records

namespace SessionInner

variable {s : SessionInner T} {pass : Pass T} {out : Sent T} {tx : Tx T} {S : Panic → Prop}

/-- Both sockets have acks, and those of the first leave room in its packet. -/
def Mixed (s : SessionInner T) : Prop :=
  ∃ a b, s.sockets.1 = [a, b] ∧ a.acks ≠ [] ∧ b.acks ≠ [] ∧ ∃ p rest,
    ((new s.mtu).appendSortedAcks a.acks false a.socket.localId : Outcome (Sent T) _) = .ok (false, p, rest)

lemma ends_emitIf_packets (hS : ∀ p, p ≠ .loopBound → S p) {full : Bool} :
    Ends S (fun out => full = true ∧ out.stock.packets = tx.queued ++ [tx.packet])
      (fun tx' => full = false ∧ tx' = tx ∨
        full = true ∧ tx'.queued = tx.queued ++ [tx.packet] ∧ tx'.packet = .new tx.session.mtu)
      (Tx.emitIf full tx id none) := by
  unfold Tx.emitIf
  split
  swap
  · exact .inl ⟨Bool.eq_false_iff.mpr ‹_›, rfl⟩
  rename_i hfull
  unfold Tx.emit
  apply Ends.bind (ends_sub (Q := fun _ => True) (hS _ (by decide)) fun _ => trivial)
  intro budget _
  dsimp only
  split
  · exact ⟨hfull, by simp [Sent.stock]⟩
  · exact .inr ⟨hfull, rfl, rfl⟩

section Own

variable {p : PacketBuilder} {acks taken : List UInt32} {idx : Bool} {uid : UInt32} {r : Bool × PacketBuilder × List UInt32}

lemma own_of_acks_nil (h : AcksAppended p acks idx uid taken r) (hp : p.acks = []) : r.2.1.Own := by
  intro b hb
  by_cases ht : taken = []
  · have hsame : r.2.1.acks = p.acks := congrArg (fun x => x.2.2) (h.unbound ht)
    rw [hsame, hp] at hb
    exact absurd hb List.not_mem_nil
  · obtain ⟨hbind, hacks⟩ := h.bound ht
    rw [hacks, hp, List.nil_append, List.mem_singleton] at hb
    exact ⟨uid, by rw [hbind, hb]⟩

lemma own_new (mtu : ℕ) : (new mtu).Own := stable_own.new mtu

lemma own_iff_of_room {a b : SocketData} {taken' : List UInt32} {r' : Bool × PacketBuilder × List UInt32} {mtu : ℕ}
    (h : AcksAppended (new mtu) a.acks false a.socket.localId taken r) (hroom : r.1 = false)
    (h' : AcksAppended r.2.1 b.acks true b.socket.localId taken' r') :
    r'.2.1.Own ↔ ¬ (a.acks ≠ [] ∧ b.acks ≠ []) := by
  have hmtu := h.mtu
  have hlen := h.buf.length_le
  have hleft := h.room hroom
  rw [hmtu] at hleft
  have htaken : taken = [] ↔ a.acks = [] := by
    refine ⟨fun ht => by_contra fun hne => h.progress hne ?_ ht, fun hnil => ?_⟩
    · simp only [minFrameAppendLen] at hleft
      omega
    · exact (List.append_eq_nil_iff.mp (h.split.symm.trans hnil)).1
  have htaken' : taken' = [] ↔ b.acks = [] := by
    refine ⟨fun ht => by_contra fun hne => h'.progress hne ?_ ht, fun hnil => ?_⟩
    · simp only [minFrameAppendLen] at hleft
      omega
    · exact (List.append_eq_nil_iff.mp (h'.split.symm.trans hnil)).1
  rw [ne_eq, ne_eq, ← htaken, ← htaken', not_and_or, not_not, not_not]
  by_cases ht : taken = []
  · have hnil : r.2.1.acks = [] := congrArg (fun x => x.2.2) (h.unbound ht)
    exact ⟨fun _ => .inl ht, fun _ => own_of_acks_nil h' hnil⟩
  · by_cases ht' : taken' = []
    · refine ⟨fun _ => .inr ht', fun _ c hc => ?_⟩
      have hsame := h'.unbound ht'
      have hacks : r'.2.1.acks = r.2.1.acks := congrArg (fun x => x.2.2) hsame
      have hbind : r'.2.1.socketBinding = r.2.1.socketBinding := congrArg (fun x => x.2.1) hsame
      rw [hbind]
      exact own_of_acks_nil h rfl c (hacks ▸ hc)
    · refine ⟨fun hown => ?_, fun hor => absurd hor (by simp [ht, ht'])⟩
      -- the acks of the first socket are in a packet that is bound to the second
      have hmem : (false, taken) ∈ r'.2.1.acks := by
        rw [(h'.bound ht').2, (h.bound ht).2]
        simp
      obtain ⟨id, hid⟩ := hown _ hmem
      rw [(h'.bound ht').1] at hid
      cases hid

end Own

lemma ends_lastSocket (hS : ∀ p, p ≠ .loopBound → S p) {i : ℕ} {d : SocketData} {C : Prop} (hq : ∀ p ∈ tx.queued, p.Own)
    (hr : ∀ taken r, AcksAppended tx.packet d.acks (decide (i > 0)) d.socket.localId taken r → (r.2.1.Own ↔ C)) :
    Ends S (fun out => (∀ p ∈ out.stock.packets, p.Own) ↔ C) (fun tx' => (∀ p ∈ (tx'.stock none).packets, p.Own) ↔ C)
      (appendAcks i [d] tx) := by
  have hlast : ∀ q : PacketBuilder, (q.Own ↔ C) → ((∀ p ∈ tx.queued ++ [q], p.Own) ↔ C) := by
    intro q hqC
    rw [List.forall_mem_append, List.forall_mem_singleton, hqC]
    exact ⟨fun h => h.2, fun h => ⟨hq, h⟩⟩
  apply (ends_appendSortedAcks hS).bind
  rintro ⟨full, q, acks⟩ ⟨taken, ha⟩
  have hown := hlast q (hr taken _ ha)
  apply (ends_emitIf_packets hS).bind_imp
  · rintro out ⟨-, hout⟩
    rw [hout]
    exact hown
  · rintro tx' (⟨-, rfl⟩ | ⟨-, hqueued, hpacket⟩)
    · exact hown
    · rw [appendAcks, ends_ok, Tx.stock, hqueued, hpacket]
      rw [List.forall_mem_append, hown]
      exact ⟨fun h => h.1, fun h => ⟨h, fun p hp => List.mem_singleton.mp hp ▸ own_new _⟩⟩

lemma ends_own (hS : ∀ p, p ≠ .loopBound → S p) (s : SessionInner T) (pass : Pass T) :
    Ends S (fun out => (∀ p ∈ out.stock.packets, p.Own) ↔ ¬ s.Mixed)
      (fun tx => (∀ p ∈ (tx.stock none).packets, p.Own) ↔ ¬ s.Mixed) (appendAcks 0 s.sockets.1 (start s pass)) := by
  have hlen := s.sockets.2
  rcases hsockets : s.sockets.1 with _ | ⟨a, _ | ⟨b, _ | ⟨c, rest⟩⟩⟩
  · have hno : ¬ s.Mixed := by
      rintro ⟨a, b, hab, -⟩
      rw [hsockets] at hab
      cases hab
    exact ⟨fun _ => hno, fun _ p hp => List.mem_singleton.mp hp ▸ own_new s.mtu⟩
  · have hno : ¬ s.Mixed := by
      rintro ⟨a', b, hab, -⟩
      rw [hsockets] at hab
      cases hab
    apply ends_lastSocket hS fun p hp => absurd hp List.not_mem_nil
    intro taken r ha
    exact ⟨fun _ => hno, fun _ => own_of_acks_nil ha rfl⟩
  · apply (ends_appendSortedAcks hS).and_eq.bind
    rintro ⟨full, q, acks⟩ ⟨⟨taken, ha⟩, heq⟩
    have hown : q.Own := own_of_acks_nil ha rfl
    have hmixed : s.Mixed ↔ full = false ∧ a.acks ≠ [] ∧ b.acks ≠ [] := by
      refine ⟨?_, fun ⟨hfull, hA, hB⟩ => ⟨a, b, hsockets, hA, hB, q, acks, heq.trans (by rw [hfull])⟩⟩
      rintro ⟨a', b', hab, hA, hB, p, rest, hp⟩
      rw [hsockets] at hab
      cases hab
      exact ⟨congrArg Prod.fst (Except.ok.inj (heq.symm.trans hp)), hA, hB⟩
    apply (ends_emitIf_packets hS).bind_imp
    · rintro out ⟨hfull, hout⟩
      rw [hout, hmixed, hfull]
      refine ⟨fun _ h => absurd h.1 (by decide), fun _ p hp => ?_⟩
      rw [List.mem_singleton.mp hp]
      exact hown
    · rintro tx' (⟨hfull, rfl⟩ | ⟨hfull, hqueued, hpacket⟩)
      · apply ends_lastSocket hS fun p hp => absurd hp List.not_mem_nil
        intro taken' r' ha'
        rw [own_iff_of_room ha hfull ha', hmixed]
        exact not_congr ⟨fun h => ⟨hfull, h⟩, fun h => h.2⟩
      · have hno : ¬ s.Mixed := fun h => absurd (hfull.symm.trans (hmixed.mp h).1) (by decide)
        apply ends_lastSocket hS
        · intro p hp
          rw [hqueued] at hp
          rw [List.mem_singleton.mp hp]
          exact hown
        · intro taken' r' ha'
          exact ⟨fun _ => hno, fun _ => own_of_acks_nil ha' (by rw [hpacket]; rfl)⟩
  · rw [hsockets] at hlen
    simp at hlen

/-! What the peer does with the acks. -/

/-- The ids that the acks stand for, on a socket that the peer knows by `uid`. -/
def ackIds (uid : UInt32) (acks : List UInt32) : Finset ℕ := (acks.map fun n => n.toNat ||| uid.toNat <<< 32).toFinset

/-- The peer reads `n` ack frames, one after the other. -/
def acknowledgeFrames {ε : Type} (uid : UInt32) (packet : Bytes) : ℕ → ℕ → SessionInner T → Outcome ε (SessionInner T)
  | 0, _, s => .ok s
  | n + 1, i, s => do
    let variant ← index packet i
    let (i, s) ← acknowledged s uid variant packet (i + 1)
    acknowledgeFrames uid packet n i s

lemma foldl_erase (f : UInt32 → ℕ) (acks : List UInt32) (u : Finset ℕ) :
    acks.foldl (fun u n => u.erase (f n)) u = u \ (acks.map f).toFinset := by
  induction acks generalizing u with
  | nil => simp
  | cons n acks ih => rw [List.foldl_cons, ih, List.map_cons, List.toFinset_cons, Finset.sdiff_insert, Finset.erase_sdiff_comm]

lemma acknowledgeFrames_eq {ε : Type} {buf a c : Bytes} {i : ℕ} (uid : UInt32) (ds : List AckRuns.Frame) (s : SessionInner T)
    (hb : buf = a ++ ds.flatMap AckRuns.Frame.bytes ++ c) (hi : i = a.length) :
    (acknowledgeFrames uid buf ds.length i s : Outcome ε _) =
      .ok { s with unackedPackets := s.unackedPackets \ ackIds uid (ds.flatMap AckRuns.Frame.acks) } := by
  induction ds generalizing a i s with
  | nil => simp [acknowledgeFrames, ackIds]
  | cons d ds ih =>
    rw [List.flatMap_cons, List.append_assoc, List.append_assoc] at hb
    obtain ⟨variant, hv, -, hdec⟩ := AckRuns.decode_frame (ε := ε) d hb hi
    have hrest : buf = (a ++ d.bytes) ++ ds.flatMap AckRuns.Frame.bytes ++ c := by
      rw [hb]
      simp only [List.append_assoc]
    rw [List.length_cons, acknowledgeFrames, index_ok hv, ok_bind, acknowledged, hdec, ok_bind, ok_bind]
    dsimp only
    have hids : ackIds uid (d.acks ++ ds.flatMap AckRuns.Frame.acks) =
        ackIds uid d.acks ∪ ackIds uid (ds.flatMap AckRuns.Frame.acks) := by
      rw [ackIds, List.map_append, List.toFinset_append]
      rfl
    rw [ih _ hrest (by rw [List.length_append, hi]), foldl_erase, List.flatMap_cons, hids, ← Finset.sup_eq_union,
      ← sdiff_sdiff_left]
    rfl

/-- Acks are bound to their own socket, the peer takes no packet for received that was not received on the socket in
question, and no ack that leaves its list is lost or sent twice. -/
structure BoundAcks (s : SessionInner T) (out : Sent T) : Prop where
  own : ∀ p ∈ out.stock.packets, p.Own
  received : (∀ d ∈ s.sockets.1, SortedAcks d.acks) → ∀ p ∈ out.stock.packets, ∃ ds, p.AckFrames ds ∧
    ∀ b ∈ p.socketBinding, ∀ (uid : UInt32) (peer : SessionInner T), ∃ peer',
      (acknowledgeFrames uid p.buf ds.length Protocol.headerLen peer : Outcome Unit _) = .ok peer' ∧
      ∀ id ∈ peer.unackedPackets, id ∉ peer'.unackedPackets →
        ∃ d, s.sockets.1[b.1.toNat]? = some d ∧ ∃ n ∈ d.acks, id = n.toNat ||| uid.toNat <<< 32
  once : Once s out.session out.stock.packets

lemma acksOf_le_acksIn {i : Bool} {p : PacketBuilder} {packets : List PacketBuilder} (h : p ∈ packets) :
    p.acksOf i ≤ acksIn i packets := by
  obtain ⟨l, l', rfl⟩ := List.append_of_mem h
  rw [acksIn_append, ← List.singleton_append, acksIn_append, acksIn_singleton]
  exact (Multiset.le_add_right _ _).trans (Multiset.le_add_left _ _)

lemma mem_acks_of_own {p : PacketBuilder} {packets : List PacketBuilder} {session : SessionInner T} {b : Bool × UInt32} {n : UInt32}
    (honce : Once s session packets) (hp : p ∈ packets) (hown : p.Own) (hbound : p.BoundTo s) (hb : b ∈ p.socketBinding)
    (hn : n ∈ p.acks.flatMap Prod.snd) : ∃ d, s.sockets.1[b.1.toNat]? = some d ∧ n ∈ d.acks := by
  have hlen := s.sockets.2
  obtain ⟨i, d, hd, rfl⟩ := hbound b hb
  have hi := toNat_decide_pos ((List.getElem?_eq_some_iff.mp hd).1.trans_le hlen)
  refine ⟨d, by rw [hi, hd], ?_⟩
  obtain ⟨d', -, hacks⟩ := honce i d hd
  have hmem : n ∈ p.acksOf (decide (i > 0)) := by
    obtain ⟨c, hc, hnc⟩ := List.mem_flatMap.mp hn
    obtain ⟨id, hid⟩ := hown c hc
    have hsame : c.1 = decide (i > 0) := congrArg Prod.fst (Option.some.inj (hid.symm.trans hb))
    rw [acksOf, Multiset.mem_coe, List.mem_flatMap]
    exact ⟨c, List.mem_filter.mpr ⟨hc, by simp [hsame]⟩, hnc⟩
  rw [← Multiset.mem_coe, hacks]
  exact Multiset.mem_add.mpr (.inl (Multiset.mem_of_le (acksOf_le_acksIn hp) hmem))

lemma boundAcks_of_own (hown : ∀ p ∈ out.stock.packets, p.Own) (hbound : ∀ p ∈ out.stock.packets, p.BoundTo s)
    (hbytes : (∀ d ∈ s.sockets.1, SortedAcks d.acks) → ∀ p ∈ out.stock.packets, ∃ ds, p.AckFrames ds)
    (honce : Once s out.session out.stock.packets) : BoundAcks s out := by
  refine ⟨hown, fun hsorted p hp => ?_, honce⟩
  obtain ⟨ds, hds⟩ := hbytes hsorted p hp
  refine ⟨ds, hds, fun b hb uid peer => ?_⟩
  obtain ⟨⟨rest, hbuf⟩, hacks⟩ := hds
  refine ⟨_, acknowledgeFrames_eq uid ds peer hbuf.symm rfl, fun id hid hnot => ?_⟩
  have hmem : id ∈ ackIds uid (ds.flatMap AckRuns.Frame.acks) :=
    by_contra fun h => hnot (Finset.mem_sdiff.mpr ⟨hid, h⟩)
  rw [ackIds, List.mem_toFinset, List.mem_map] at hmem
  obtain ⟨n, hn, rfl⟩ := hmem
  obtain ⟨d, hd, hnd⟩ := mem_acks_of_own honce hp (hown p hp) (hbound p hp) hb (hacks ▸ hn)
  exact ⟨d, hd, n, hnd, rfl⟩

variable [LT T] [DecidableLT T]

/-- The acks of a pass are bound as they should be unless both sockets have some, and those of the first leave room
in their packet for the second. -/
theorem transmit_boundAcks_iff {ε : Type} (h : (transmit s pass : Outcome ε (Sent T)) = .ok out) :
    BoundAcks s out ↔ pass.packetBudget = 0 ∨ ¬ s.Mixed := by
  have hends := ends_own (S := fun _ => True) (fun _ _ => trivial) s pass
  cases transmitted h with
  | nothing hbudget hout =>
    refine ⟨fun _ => .inl hbudget, fun _ => ?_⟩
    rw [hout]
    have hnone : ∀ {C : PacketBuilder → Prop}, ∀ p ∈ (⟨s, [], none⟩ : Sent T).stock.packets, C p :=
      fun p hp => absurd hp List.not_mem_nil
    exact boundAcks_of_own hnone hnone (fun _ => hnone) fun j d hd => ⟨d, hd, by simp [Sent.stock]⟩
  | acks k hbudget hout hk =>
    have hown := hends.err hout
    refine ⟨fun hb => .inr (hown.mp hb.own), fun hor => ?_⟩
    exact boundAcks_of_own (hown.mpr (hor.resolve_left hbudget)) (fun p hp => (hk.packets p hp).bound)
      (fun hs p hp => (hk.packets p hp).ackFrames hs) hk.once
  | passed tx k hbudget htx hk hout =>
    have hrec : (out.stock.packets.filterMap ackRecord).Perm ((tx.stock none).packets.filterMap ackRecord) :=
      Multiset.coe_eq_coe.mp hout.records
    have hown : (∀ p ∈ out.stock.packets, p.Own) ↔ ¬ s.Mixed := by
      rw [← hends.ok htx, own_iff_records, own_iff_records]
      exact forall_congr' fun r => by rw [hrec.mem_iff]
    refine ⟨fun hb => .inr (hown.mp hb.own), fun hor => ?_⟩
    apply boundAcks_of_own (hown.mpr (hor.resolve_left hbudget))
    · exact hout.stable _ (stable_boundTo s) fun p hp => (hk.packets p hp).bound
    · intro hs
      exact hout.stable _ stable_ackFrames fun p hp => (hk.packets p hp).ackFrames hs
    · intro j d hd
      obtain ⟨d', hd', hacks⟩ := hk.once j d hd
      refine ⟨d', by rw [hout.sockets, hd'], ?_⟩
      rw [hacks, acksIn_eq_records, acksIn_eq_records, (hrec.map _).sum_eq]

def twoSockets (acks acks' : List UInt32) : SessionInner ℕ :=
  idle ⟨[⟨acks, ⟨3, 3⟩⟩, ⟨acks', ⟨4, 4⟩⟩], le_rfl⟩

/-- The first socket has received the packet 1 and the second the packet 2. The peer, which knows the second socket
by 6, then takes the packet 1 of that socket for received. -/
theorem transmit_mixes_acks : ∃ out p peer', (transmit (twoSockets [1] [2]) .small : Outcome Unit (Sent ℕ)) = .ok out ∧
    out.stock.packets = [p] ∧ p.socketBinding = some (true, 4) ∧
    (acknowledgeFrames 6 p.buf 2 Protocol.headerLen { twoSockets [] [] with unackedPackets := {1 ||| 6 <<< 32} } :
      Outcome Unit (SessionInner ℕ)) = .ok peer' ∧ peer'.unackedPackets = ∅ ∧ ¬ BoundAcks (twoSockets [1] [2]) out := by
  refine ⟨_, _, _, rfl, rfl, rfl, rfl, by decide +kernel, fun h => ?_⟩
  obtain ⟨id, hid⟩ := h.own _ List.mem_cons_self (false, [1]) (by decide +kernel)
  have hbind : some (true, (4 : UInt32)) = some (false, id) := hid
  cases hbind

theorem transmit_boundAcks_one : ∃ out, (transmit (twoSockets [1, 2, 7] []) .small : Outcome Unit (Sent ℕ)) = .ok out ∧
    BoundAcks (twoSockets [1, 2, 7] []) out := by
  have h : (transmit (twoSockets [1, 2, 7] []) .small : Outcome Unit (Sent ℕ)) = .ok _ := rfl
  refine ⟨_, h, (transmit_boundAcks_iff h).mpr (.inr ?_)⟩
  rintro ⟨a, b, hab, -, hb, -⟩
  cases hab
  exact hb rfl

end SessionInner

end Pqsnet.Session
