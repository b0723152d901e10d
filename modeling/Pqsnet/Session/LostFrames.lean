import Pqsnet.Session.Accounting

/-! Which frames of the payloads in flight get lost. A pass takes everything that timed out from the queue, but
it keeps only the last of these payloads to send it again. -/

namespace Pqsnet.Session

open Checked Outcome Stock

variable {T : Type}

namespace Sent

variable {out : Sent T} {f : ElicitingFrame}

/-- In a packet that was sent or queued, or kept for another pass. -/
def Carries (out : Sent T) (f : ElicitingFrame) : Prop :=
  (∃ p ∈ out.stock.packets, f ∈ p.elicitingFrames ∧ f.written <:+: p.buf) ∨ f ∈ out.session.orphans

/-- A frame is carried, or if it is a segment, each of its bytes in some part of it. -/
def Covers (out : Sent T) : ElicitingFrame → Prop
  | .seg seg => (∃ part : Segment, out.Carries (.seg part) ∧ part.label = seg.label) ∧
      ∀ i < seg.data.length, ∃ part : Segment, out.Carries (.seg part) ∧ part.label = seg.label ∧
        part.docNo = seg.docNo ∧ part.off ≤ seg.off + i ∧ part.data[seg.off + i - part.off]? = seg.data[i]?
  | .control variant docNo label => out.Carries (.control variant docNo label)

/-- No frame that was in flight and unacknowledged in `s` is lost. -/
def Accounts (out : Sent T) (s : SessionInner T) : Prop :=
  ∀ payload ∈ s.packetQueue, payload.packetUid ∈ s.unackedPackets → ∀ f ∈ payload.elicitingFrames,
    payload ∈ out.session.packetQueue ∨ out.Covers f

lemma mem_frames {a : Stock T} : f ∈ a.frames ↔ (∃ p ∈ a.packets, f ∈ p.elicitingFrames) ∨ f ∈ a.orphans := by
  rw [Stock.frames, Multiset.mem_add, Multiset.mem_coe, Multiset.mem_coe, List.mem_flatMap]

lemma Carries.mem_frames (h : out.Carries f) : f ∈ out.stock.frames := by
  rw [Sent.mem_frames]
  rcases h with ⟨p, hp, hf, -⟩ | hf
  · exact .inl ⟨p, hp, hf⟩
  · exact .inr hf

lemma carries_of_mem (hs : ∀ p ∈ out.stock.packets, p.Sound) (h : f ∈ out.stock.frames) : out.Carries f := by
  rcases Sent.mem_frames.mp h with ⟨p, hp, hf⟩ | hf
  · exact .inl ⟨p, hp, hf, (hs p hp).written f hf⟩
  · exact .inr hf

lemma Covers.exists_label (h : out.Covers f) : ∃ g ∈ out.stock.frames, g.label = f.label := by
  cases f with
  | seg seg =>
    obtain ⟨⟨part, hpart, hlabel⟩, -⟩ := h
    exact ⟨_, hpart.mem_frames, hlabel⟩
  | control variant docNo label => exact ⟨_, Carries.mem_frames h, rfl⟩

end Sent

section Parts

variable {seg : Segment} {l : List Segment} {fs : List ElicitingFrame} {ps : Multiset ElicitingFrame} {f : ElicitingFrame}

lemma Pieces.same (h : Pieces seg l) : ∀ part ∈ l, part.label = seg.label ∧ part.docNo = seg.docNo := by
  induction h with
  | whole seg => simp
  | cut h hl ih =>
    intro part hpart
    rcases List.mem_cons.mp hpart with rfl | hpart
    · exact ⟨h.first_label, h.first_docNo⟩
    · exact ⟨(ih part hpart).1.trans h.rest_label, (ih part hpart).2.trans h.rest_docNo⟩

lemma Pieces.exists_mem (h : Pieces seg l) : ∃ part, part ∈ l := by
  cases h with
  | whole => exact ⟨_, List.mem_singleton_self _⟩
  | cut => exact ⟨_, List.mem_cons_self⟩

lemma Pieces.byte (h : Pieces seg l) {i : ℕ} (hi : i < seg.data.length) :
    ∃ part ∈ l, part.off ≤ seg.off + i ∧ part.data[seg.off + i - part.off]? = seg.data[i]? := by
  induction h generalizing i with
  | whole seg => exact ⟨seg, List.mem_singleton_self _, Nat.le_add_right _ _, by rw [Nat.add_sub_cancel_left]⟩
  | @cut seg a r l h hl ih =>
    rw [h.data, List.length_append] at hi
    by_cases hia : i < a.data.length
    · refine ⟨a, List.mem_cons_self, by rw [h.first_off]; exact Nat.le_add_right _ _, ?_⟩
      rw [h.first_off, Nat.add_sub_cancel_left, h.data, List.getElem?_append_left hia]
    · obtain ⟨part, hpart, hoff, hbyte⟩ := ih (i := i - a.data.length) (by omega)
      have hsame : r.off + (i - a.data.length) = seg.off + i := by
        rw [h.rest_off]
        omega
      rw [hsame] at hoff hbyte
      refine ⟨part, List.mem_cons_of_mem _ hpart, hoff, ?_⟩
      rw [hbyte, h.data, List.getElem?_append_right (by omega)]

lemma Parts.covers {out : Sent T} (h : Parts fs ps) (hps : ∀ f ∈ ps, out.Carries f) : ∀ f ∈ fs, out.Covers f := by
  induction h with
  | nil => exact fun f hf => absurd hf List.not_mem_nil
  | control variant docNo label h ih =>
    intro f hf
    rcases List.mem_cons.mp hf with rfl | hf
    · exact hps _ (Multiset.mem_cons_self _ _)
    · exact ih (fun g hg => hps g (Multiset.mem_cons_of_mem hg)) f hf
  | @seg seg l fs ps hl h ih =>
    have hparts : ∀ part ∈ l, out.Carries (.seg part) := fun part hpart =>
      hps _ (Multiset.mem_add.mpr (.inl (Multiset.mem_coe.mpr (List.mem_map_of_mem hpart))))
    intro f hf
    rcases List.mem_cons.mp hf with rfl | hf
    · refine ⟨?_, fun i hi => ?_⟩
      · obtain ⟨part, hpart⟩ := hl.exists_mem
        exact ⟨part, hparts part hpart, (hl.same part hpart).1⟩
      · obtain ⟨part, hpart, hoff, hbyte⟩ := hl.byte hi
        obtain ⟨hlabel, hdoc⟩ := hl.same part hpart
        exact ⟨part, hparts part hpart, hlabel, hdoc, hoff, hbyte⟩
    · exact ih (fun g hg => hps g (Multiset.mem_add.mpr (.inr hg))) f hf

lemma Parts.exists_label (h : Parts fs ps) (hf : f ∈ ps) : ∃ g ∈ fs, g.label = f.label := by
  induction h with
  | nil => exact absurd hf (Multiset.notMem_zero _)
  | control variant docNo label h ih =>
    rcases Multiset.mem_cons.mp hf with rfl | hf
    · exact ⟨_, List.mem_cons_self, rfl⟩
    · obtain ⟨g, hg, hlabel⟩ := ih hf
      exact ⟨g, List.mem_cons_of_mem _ hg, hlabel⟩
  | seg hl h ih =>
    rcases Multiset.mem_add.mp hf with hf | hf
    · obtain ⟨part, hpart, rfl⟩ := List.mem_map.mp (Multiset.mem_coe.mp hf)
      exact ⟨_, List.mem_cons_self, (hl.same part hpart).1.symm⟩
    · obtain ⟨g, hg, hlabel⟩ := ih hf
      exact ⟨g, List.mem_cons_of_mem _ hg, hlabel⟩

end Parts

namespace SessionInner

variable {s : SessionInner T}

def inFlight (s : SessionInner T) : List ElicitingFrame :=
  s.packetQueue.flatMap SentPayload.elicitingFrames ++ s.orphans

/-- Every frame has a name of its own. -/
structure Labelled (s : SessionInner T) : Prop where
  named : ∀ f ∈ s.inFlight, f.label ≠ none
  distinct : (s.inFlight.map ElicitingFrame.label).Nodup

namespace Labelled

variable {payload payload' : SentPayload T} {f g : ElicitingFrame}

lemma mem_inFlight (hp : payload ∈ s.packetQueue) (hf : f ∈ payload.elicitingFrames) : f ∈ s.inFlight :=
  List.mem_append_left _ (List.mem_flatMap.mpr ⟨payload, hp, hf⟩)

lemma eq_of_label (h : s.Labelled) (hf : f ∈ s.inFlight) (hg : g ∈ s.inFlight) (hlabel : f.label = g.label) : f = g :=
  List.inj_on_of_nodup_map h.distinct hf hg hlabel

lemma payloads (h : s.Labelled) :
    s.packetQueue.Pairwise fun p q => List.Disjoint p.elicitingFrames q.elicitingFrames :=
  (List.nodup_flatMap.mp (List.nodup_append.mp h.distinct.of_map).1).2

lemma notMem_orphans (h : s.Labelled) (hp : payload ∈ s.packetQueue) (hf : f ∈ payload.elicitingFrames) :
    f ∉ s.orphans := fun ho =>
  (List.nodup_append.mp h.distinct.of_map).2.2 f (List.mem_flatMap.mpr ⟨payload, hp, hf⟩) f ho rfl

lemma eq_of_mem (h : s.Labelled) (hp : payload ∈ s.packetQueue) (hp' : payload' ∈ s.packetQueue)
    (hf : f ∈ payload.elicitingFrames) (hf' : f ∈ payload'.elicitingFrames) : payload = payload' := by
  by_contra hne
  have hsymm : Std.Symm fun p q : SentPayload T => List.Disjoint p.elicitingFrames q.elicitingFrames :=
    ⟨fun _ _ hd => hd.symm⟩
  exact h.payloads.forall hp hp' hne hf hf'

end Labelled

variable [LT T] [DecidableLT T] {pass : Pass T} {rto : T} {out : Sent T} {payload : SentPayload T}

/-- What a pass that found `s` leaves behind, if it got to the payloads that timed out. -/
structure Resent (rto : T) (s : SessionInner T) (out : Sent T) : Prop where
  frames : ∃ ps ns, Parts (resent rto s) ps ∧ Fresh ns ∧ out.stock.frames = s.orphans + (ps + ns)
  sound : ∀ p ∈ out.stock.packets, p.Sound
  queue : ∃ sent : List (SentPayload T), out.session.packetQueue = unexpired rto s.packetQueue ++ sent ∧
    ∀ payload ∈ sent, ∃ p ∈ out.stock.packets, payload.elicitingFrames = p.elicitingFrames

lemma Passed.resent {k : ℕ} {tx : Tx T} (h : Passed rto tx out) (hk : Acked s k tx.session (tx.stock none).packets) :
    Resent rto s out := by
  have hresent : SessionInner.resent rto tx.session = SessionInner.resent rto s := by
    rw [SessionInner.resent, SessionInner.resent, hk.queue, hk.unacked]
  obtain ⟨ps, ns, hps, hns, hframes⟩ := h.frames
  refine ⟨⟨ps, ns, hresent ▸ hps, hns, ?_⟩, h.stable _ PacketBuilder.stable_sound fun p hp => (hk.packets p hp).sound, ?_⟩
  · rw [hframes, hk.frames]
  · rw [← hk.queue]
    exact h.queue

lemma mem_expired_or_unexpired (rto : T) (h : payload ∈ s.packetQueue) :
    payload ∈ expired rto s.packetQueue ∨ payload ∈ unexpired rto s.packetQueue := by
  rwa [← List.mem_append, expired, unexpired, List.takeWhile_append_dropWhile]

lemma mem_of_mem_expired (h : payload ∈ expired rto s.packetQueue) : payload ∈ s.packetQueue :=
  (List.takeWhile_prefix _).subset h

lemma Labelled.notMem_unexpired (h : s.Labelled) (hp : payload ∈ expired rto s.packetQueue)
    (hne : payload.elicitingFrames ≠ []) : payload ∉ unexpired rto s.packetQueue := by
  have hpairs := h.payloads
  rw [← List.takeWhile_append_dropWhile (p := (decide <| ·.sentAt < rto)) (l := s.packetQueue), List.pairwise_append]
    at hpairs
  intro hp'
  obtain ⟨f, hf⟩ := List.exists_mem_of_ne_nil _ hne
  exact hpairs.2.2 payload hp payload hp' hf hf

lemma Resent.of_label (h : Resent rto s out) (hs : s.Labelled) {f g : ElicitingFrame} (hp : payload ∈ s.packetQueue)
    (hf : f ∈ payload.elicitingFrames) (hg : g ∈ out.stock.frames) (hlabel : g.label = f.label) :
    (removed s.unackedPackets (expired rto s.packetQueue)).getLast? = some payload := by
  obtain ⟨ps, ns, hps, hns, hframes⟩ := h.frames
  have hin := Labelled.mem_inFlight hp hf
  rw [hframes, Multiset.mem_add, Multiset.mem_add] at hg
  rcases hg with hg | hg | hg
  · have heq := hs.eq_of_label (List.mem_append_right _ hg) hin hlabel
    exact absurd (heq ▸ hg) (hs.notMem_orphans hp hf)
  · obtain ⟨g', hg', hlabel'⟩ := hps.exists_label hg
    unfold resent at hg'
    cases hr : (removed s.unackedPackets (expired rto s.packetQueue)).getLast? with
    | none =>
      rw [hr] at hg'
      exact absurd hg' List.not_mem_nil
    | some payload' =>
      rw [hr] at hg'
      have hp' := mem_of_mem_expired ((removed_sublist _ _).subset (List.mem_of_getLast? hr))
      have heq := hs.eq_of_label (Labelled.mem_inFlight hp' hg') hin (hlabel'.trans hlabel)
      rw [hs.eq_of_mem hp hp' hf (heq ▸ hg')]
  · exact absurd (hlabel ▸ hns g hg) (hs.named f hin)

lemma Resent.of_accounts (h : Resent rto s out) (hs : s.Labelled) (ha : out.Accounts s)
    (hp : payload ∈ expired rto s.packetQueue) (hu : payload.packetUid ∈ s.unackedPackets)
    (hne : payload.elicitingFrames ≠ []) :
    (removed s.unackedPackets (expired rto s.packetQueue)).getLast? = some payload := by
  have hq := mem_of_mem_expired hp
  obtain ⟨f, hf⟩ := List.exists_mem_of_ne_nil _ hne
  rcases ha payload hq hu f hf with hkept | hcovers
  · obtain ⟨sent, hqueue, hsent⟩ := h.queue
    rw [hqueue, List.mem_append] at hkept
    obtain ⟨p, hp', hframes⟩ := hsent payload (hkept.resolve_left (hs.notMem_unexpired hp hne))
    exact h.of_label hs hq hf (Sent.mem_frames.mpr (.inl ⟨p, hp', hframes ▸ hf⟩)) rfl
  · obtain ⟨g, hg, hlabel⟩ := hcovers.exists_label
    exact h.of_label hs hq hf hg hlabel

lemma Resent.accounts (h : Resent rto s out)
    (hlast : ∀ payload ∈ expired rto s.packetQueue, payload.packetUid ∈ s.unackedPackets → payload.elicitingFrames ≠ [] →
      (removed s.unackedPackets (expired rto s.packetQueue)).getLast? = some payload) : out.Accounts s := by
  intro payload hp hu f hf
  rcases mem_expired_or_unexpired rto hp with hp | hp
  · obtain ⟨ps, ns, hps, hns, hframes⟩ := h.frames
    have hresent : resent rto s = payload.elicitingFrames := by
      rw [resent, hlast payload hp hu (List.ne_nil_of_mem hf)]
      rfl
    rw [hresent] at hps
    refine .inr (hps.covers (fun g hg => Sent.carries_of_mem h.sound ?_) f hf)
    rw [hframes, Multiset.mem_add, Multiset.mem_add]
    exact .inr (.inl hg)
  · obtain ⟨sent, hqueue, -⟩ := h.queue
    exact .inl (hqueue ▸ List.mem_append_left _ hp)

/-- A pass that goes on after its acks loses a frame unless all the frames that timed out and are not
acknowledged belong to one payload, the one that is taken from the queue last. -/
theorem transmit_accounts_iff {ε : Type} (hs : s.Labelled) (h : (transmit s pass : Outcome ε (Sent T)) = .ok out) :
    out.Accounts s ↔ s.SpentOnAcks pass ∨ ∀ payload ∈ expired pass.rto s.packetQueue,
      payload.packetUid ∈ s.unackedPackets → payload.elicitingFrames ≠ [] →
      (removed s.unackedPackets (expired pass.rto s.packetQueue)).getLast? = some payload := by
  cases transmitted h with
  | nothing hbudget hout =>
    refine ⟨fun _ => .inl (.inl hbudget), fun _ payload hp _ f _ => .inl ?_⟩
    rwa [hout]
  | acks k hbudget hout hk =>
    refine ⟨fun _ => .inl (.inr ⟨out, hout⟩), fun _ payload hp _ f _ => .inl ?_⟩
    rwa [hk.queue]
  | passed tx k hbudget htx hk hout =>
    have hresent := hout.resent hk
    have hgoes : ¬ s.SpentOnAcks pass := by
      rintro (hzero | ⟨out', hout'⟩)
      · exact hbudget hzero
      · rw [htx] at hout'
        cases hout'
    exact ⟨fun ha => .inr fun payload hp hu hne => hresent.of_accounts hs ha hp hu hne,
      fun hlast => hresent.accounts (hlast.resolve_left hgoes)⟩

/-- Two payloads that time out. -/
def twoPayloads (unacked : Finset ℕ) : SessionInner ℕ :=
  { (idle ⟨[⟨[], ⟨1, 1⟩⟩], by decide⟩ : SessionInner ℕ) with
    packetQueue := [⟨7, 0, 2, [.control variantControlFin 2 (some 0)]⟩, ⟨8, 0, 2, [.control variantControlFin 4 (some 1)]⟩]
    unackedPackets := unacked }

theorem transmit_loses : ∃ out, (transmit (twoPayloads {7, 8}) .small : Outcome Unit (Sent ℕ)) = .ok out ∧
    ¬ out.Accounts (twoPayloads {7, 8}) := by
  refine ⟨_, rfl, fun h => ?_⟩
  rcases h ⟨7, 0, 2, [.control variantControlFin 2 (some 0)]⟩ (by decide) (by decide) _ List.mem_cons_self with hq | hc
  · exact absurd hq (by decide +kernel)
  · exact absurd (Sent.Carries.mem_frames hc) (by decide +kernel)

theorem transmit_accounts_one : ∃ out, (transmit (twoPayloads {8}) .small : Outcome Unit (Sent ℕ)) = .ok out ∧
    out.Accounts (twoPayloads {8}) := by
  have h : (transmit (twoPayloads {8}) .small : Outcome Unit (Sent ℕ)) = .ok _ := rfl
  exact ⟨_, h, (transmit_accounts_iff ⟨by decide, by decide⟩ h).mpr (.inr (by decide))⟩

end SessionInner

end Pqsnet.Session
