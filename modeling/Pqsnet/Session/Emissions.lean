import Pqsnet.Session.DocumentPass
import Pqsnet.Session.PassSteps

/-! The packets that a pass sends: how long they are, how many there are, and that there is something in them. -/

namespace Pqsnet.Session

open Checked Outcome PacketBuilder SessionInner

variable {T : Type} {E : PacketBuilder → Prop} {H : Prop} {b : ℕ} {pt pt' : Point T} {s : SessionInner T} {pass : Pass T} {out : Sent T}

section Mtu

variable [LT T] [DecidableLT T]

end Mtu

/-- Under a budget of `b` that was not used up, packets with nothing in them are new, and those that were sent had something in them. -/
structure Filled (pt : Point T) : Prop where
  packet : pt.tx.packet = .new pt.tx.session.mtu ∨ pt.tx.packet.Framed
  temp : ∀ t ∈ pt.temp, t = .new pt.tx.session.mtu ∨ t.Framed
  queued : ∀ q ∈ pt.tx.queued, q.Framed

lemma Called.filled {p q : PacketBuilder} {full : Bool} (h : Called s p full q) (hp : p = .new s.mtu ∨ p.Framed) : q = .new s.mtu ∨ q.Framed := by
  rcases h.frame with hq | ⟨rfl, -⟩
  · exact .inr hq
  · exact hp

lemma Called.framed {p q : PacketBuilder} (h : Called s p true q) (hmtu : 57 ≤ s.mtu) (hp : p = .new s.mtu ∨ p.Framed) : q.Framed := by
  rcases h.frame with hq | ⟨rfl, hroom⟩
  · exact hq
  rcases hp with rfl | hp
  · have hlt : s.mtu < 8 + 49 := hroom rfl
    omega
  · exact hp

lemma framed_concat {queued : List PacketBuilder} {q : PacketBuilder} (h : ∀ p ∈ queued, p.Framed) (hq : q.Framed) :
    ∀ p ∈ queued ++ [q], p.Framed := by
  intro p hp
  rcases List.mem_append.mp hp with hp | hp
  · exact h p hp
  · rw [List.mem_singleton.mp hp]
    exact hq

lemma Filled.step (h : Filled pt) (hg : Good b pt) (hmtu : 57 ≤ pt.tx.session.mtu) (hs : Step PacketBuilder.Framed pt pt') : Filled pt' := by
  obtain ⟨hpacket, htemp, hqueued⟩ := h
  cases hs with
  | call hc => exact ⟨(hc.called hg.packet.ready).filled hpacket, htemp, hqueued⟩
  | emit he _ => exact ⟨.inl rfl, htemp, framed_concat hqueued ((he.called hg.packet.ready).framed hmtu hpacket)⟩
  | aside =>
    refine ⟨.inl rfl, ?_, hqueued⟩
    rintro t ⟨rfl⟩
    exact hpacket
  | back hE _ => exact ⟨htemp _ rfl, fun t ht => absurd ht (Option.not_mem_none t), framed_concat hqueued hE⟩
  | session hs =>
    rw [← hs.mtu] at hpacket htemp
    exact ⟨hpacket, htemp, hqueued⟩

lemma Filled.run (h : Filled pt) (hg : Good b pt) (hmtu : 57 ≤ pt.tx.session.mtu) (hr : Run PacketBuilder.Framed pt pt') : Filled pt' := by
  induction hr with
  | refl => exact h
  | tail hr hs ih => exact ih.step (hg.run hr) ((Run.quiet hr).mtu.symm ▸ hmtu) hs

lemma Step.queued (h : Step E pt pt') : pt.tx.queued <+: pt'.tx.queued := by
  cases h with
  | call _ | aside | session _ => exact List.prefix_refl _
  | emit _ _ | back _ _ => exact List.prefix_append _ _

lemma Run.queued (h : Run E pt pt') : pt.tx.queued <+: pt'.tx.queued := by
  induction h with
  | refl => exact List.prefix_refl _
  | tail _ hs ih => exact ih.trans hs.queued

lemma Ended.queued (h : Ended E H pt out) : pt.tx.queued <+: out.queued := by
  cases h with
  | emit hr _ _ _ hq _ => exact hq ▸ (Run.queued hr).trans (List.prefix_append _ _)
  | spill _ hr _ _ _ hq _ => exact hq ▸ ((Run.queued hr).trans (List.prefix_append _ _)).trans (List.prefix_append _ _)

section Budget

variable [LT T] [DecidableLT T]

end Budget

end Pqsnet.Session
