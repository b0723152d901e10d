import Pqsnet.Session.Accounting

/-! How packets leave the session. A packet is bound to the local id of a socket, but when it is sent that is
compared with the socket's uid, and a packet that fails the comparison goes out unencrypted. -/

namespace Pqsnet.Session

open Checked Outcome PacketBuilder

variable {T : Type}

namespace SessionInner

variable {found s s' : SessionInner T} {pass : Pass T} {p : PacketBuilder} {datagram : Datagram} {out : Sent T} {ε : Type}

/-- The datagram is the packet as `d` encrypts it, and is known by the id that `d` gives it. -/
structure SealedBy (d : Sock) (s : SessionInner T) (pass : Pass T) (p : PacketBuilder) (s' : SessionInner T)
    (datagram : Datagram) : Prop where
  sockets : datagram.sealedBy = [d]
  bytes : datagram.bytes = (pass.encryptInPlace d (p.buf ++ List.replicate Protocol.footerLen 0)).1
  ids : ∃ uid, uid = (pass.encryptInPlace d (p.buf ++ List.replicate Protocol.footerLen 0)).2.toNat ||| d.uid.toNat <<< 32 ∧
    s'.unackedPackets = insert uid s.unackedPackets ∧
    s'.packetQueue = s.packetQueue ++ [⟨uid, pass.now, p.resendLen, p.elicitingFrames⟩]

def installed (s : SessionInner T) : List Sock := s.sockets.1.map SocketData.socket

/-- A packet that was built in `found` is sent from `s`: encrypted by one of the sockets, and by the one it
is bound to if that is still there. -/
structure Sealed (found s : SessionInner T) (pass : Pass T) (p : PacketBuilder) (s' : SessionInner T)
    (datagram : Datagram) : Prop where
  one : ∃ d ∈ s.installed, SealedBy d s pass p s' datagram
  bound : ∀ b ∈ p.socketBinding, ∀ x, found.sockets.1[b.1.toNat]? = some x → x.socket ∈ s.installed →
    datagram.sealedBy = [x.socket]

lemma boundTo_of_transmit [LT T] [DecidableLT T] {build : Pass T} (h : (transmit found build : Outcome ε (Sent T)) = .ok out)
    (hp : p ∈ out.stock.packets) : p.BoundTo found := by
  cases transmitted h with
  | nothing hbudget hout =>
    rw [hout] at hp
    exact absurd hp List.not_mem_nil
  | acks k hbudget hout hk => exact (hk.packets p hp).bound
  | passed tx k hbudget htx hk hout => exact hout.stable _ (stable_boundTo found) (fun q hq => (hk.packets q hq).bound) p hp

lemma sendNow_unbound (hb : p.socketBinding = none) (h : (sendNow s pass p : Outcome ε _) = .ok (s', datagram)) :
    ∃ d ∈ s.installed, SealedBy d s pass p s' datagram := by
  unfold sendNow encryptPacket entryAt at h
  rw [hb] at h
  cases hd : s.sockets.1[s.curIdx.toNat]? with
  | none =>
    simp only [hd] at h
    cases h
  | some d =>
    simp only [hd] at h
    cases h
    exact ⟨d.socket, List.mem_map_of_mem (List.mem_of_getElem? hd), rfl, rfl, _, rfl, rfl, rfl⟩

lemma sendNow_bound {idx : Bool} {id : UInt32} (hb : p.socketBinding = some (idx, id))
    (h : (sendNow s pass p : Outcome ε _) = .ok (s', datagram)) :
    ∃ d, s.sockets.1[idx.toNat]? = some d ∧
      if d.socket.uid = id then SealedBy d.socket s pass p s' datagram else datagram.sealedBy = [] := by
  unfold sendNow encryptPacket entryAt at h
  rw [hb] at h
  cases hd : s.sockets.1[idx.toNat]? with
  | none =>
    simp only [hd] at h
    cases h
  | some d =>
    simp only [hd, ok_bind] at h
    refine ⟨d, rfl, ?_⟩
    split
    · rename_i huid
      rw [if_pos huid] at h
      cases h
      exact ⟨rfl, rfl, _, by rw [huid], rfl, rfl⟩
    · rename_i huid
      rw [if_neg huid] at h
      cases h
      rfl

/-- What a packet of `transmit` needs in order to leave encrypted, at whatever time it is sent: if it is bound, then
the socket that is now at the same index has for its uid the local id of the socket from which the acks were taken,
and it is that socket if that one is still there. -/
theorem sendNow_sealed_iff [LT T] [DecidableLT T] {build : Pass T}
    (hout : (transmit found build : Outcome ε (Sent T)) = .ok out) (hp : p ∈ out.stock.packets)
    (h : (sendNow s pass p : Outcome ε _) = .ok (s', datagram)) :
    Sealed found s pass p s' datagram ↔
      ∀ i x, found.sockets.1[i]? = some x → p.socketBinding = some (decide (i > 0), x.socket.localId) →
        ∃ d, s.sockets.1[i]? = some d ∧ d.socket.uid = x.socket.localId ∧ (x.socket ∈ s.installed → d.socket = x.socket) := by
  have hlen := found.sockets.2
  refine ⟨fun hsealed i x hx hb => ?_, fun hcond => ?_⟩
  · have hi := toNat_decide_pos (lt_of_lt_of_le (List.getElem?_eq_some_iff.mp hx).1 hlen)
    obtain ⟨d, hd, hend⟩ := sendNow_bound hb h
    rw [hi] at hd
    obtain ⟨d', -, hby⟩ := hsealed.one
    split at hend
    · rename_i huid
      refine ⟨d, hd, huid, fun hin => ?_⟩
      have hsame := hsealed.bound _ hb x (by rwa [hi]) hin
      exact List.singleton_injective (hend.sockets.symm.trans hsame)
    · exact absurd (hend.symm.trans hby.sockets) (List.cons_ne_nil _ _).symm
  · cases hb : p.socketBinding with
    | none => exact ⟨sendNow_unbound hb h, fun b hb' => absurd (hb ▸ hb') (Option.not_mem_none b)⟩
    | some b =>
      obtain ⟨i, x, hx, rfl⟩ := boundTo_of_transmit hout hp b hb
      have hi := toNat_decide_pos (lt_of_lt_of_le (List.getElem?_eq_some_iff.mp hx).1 hlen)
      obtain ⟨d, hd, huid, hsame⟩ := hcond i x hx hb
      obtain ⟨d', hd', hend⟩ := sendNow_bound hb h
      rw [hi, hd] at hd'
      obtain rfl := Option.some.inj hd'
      rw [if_pos huid] at hend
      refine ⟨⟨d.socket, List.mem_map_of_mem (List.mem_of_getElem? hd), hend⟩, fun b' hb' x' hx' hin => ?_⟩
      rw [hb, Option.mem_some_iff] at hb'
      rw [← hb', hi, hx] at hx'
      obtain rfl := Option.some.inj hx'
      rw [hend.sockets, hsame hin]

/-- One socket, and one ack to send. -/
def oneSocket (localId uid : UInt32) : SessionInner ℕ := idle ⟨[⟨[5], ⟨localId, uid⟩⟩], one_le_two⟩

/-- The packet is sent at once, by the only socket there is, and still in plain. -/
theorem sendNow_plain : ∃ out p datagram s' datagram', (transmit (oneSocket 1 2) .small : Outcome Unit (Sent ℕ)) = .ok out ∧
    out.sentNow = some (p, datagram) ∧ datagram = ⟨p.buf ++ List.replicate Protocol.footerLen 0, []⟩ ∧
    (sendNow (oneSocket 1 2) .small p : Outcome Unit _) = .ok (s', datagram') ∧
    ¬ Sealed (oneSocket 1 2) (oneSocket 1 2) .small p s' datagram' := by
  refine ⟨_, _, _, _, _, rfl, rfl, rfl, rfl, fun h => ?_⟩
  obtain ⟨d, -, hby⟩ := h.one
  exact absurd hby.sockets (List.cons_ne_nil _ _).symm

theorem sendNow_sealed_one : ∃ out p s' datagram, (transmit (oneSocket 2 2) .small : Outcome Unit (Sent ℕ)) = .ok out ∧
    p ∈ out.stock.packets ∧ (sendNow (oneSocket 2 2) .small p : Outcome Unit _) = .ok (s', datagram) ∧
    Sealed (oneSocket 2 2) (oneSocket 2 2) .small p s' datagram := by
  have hout : (transmit (oneSocket 2 2) .small : Outcome Unit (Sent ℕ)) = .ok _ := rfl
  refine ⟨_, _, _, _, hout, List.mem_cons_self, rfl, (sendNow_sealed_iff hout List.mem_cons_self rfl).mpr ?_⟩
  intro i x hx _
  have hi : i = 0 := Nat.lt_one_iff.mp (List.getElem?_eq_some_iff.mp hx).1
  subst hi
  cases hx
  exact ⟨_, rfl, rfl, fun _ => rfl⟩

end SessionInner

end Pqsnet.Session
