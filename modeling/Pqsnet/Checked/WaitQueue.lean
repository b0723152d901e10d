import Mathlib.Data.Finset.Card
import Mathlib.Data.Multiset.AddSub
import Mathlib.Tactic

/-! Items that tasks wait for. An item that comes in calls one of the tasks that asked for it, the last one first, whether that
task still waits or not, and a call takes its time. -/

namespace Pqsnet.Checked

structure Sleepers (ι : Type*) where
  /-- Those who found nothing and were not woken since. -/
  asleep : Finset ι
  /-- Those who were woken and have not looked since. -/
  awake : Finset ι
  /-- The calls that are on their way. -/
  flight : Multiset ι
  /-- How many calls came to somebody who was not asleep, or who left after the call. -/
  missed : ℕ

namespace Sleepers

variable {ι : Type*}

def callAll (s : Sleepers ι) (l : List ι) : Sleepers ι := { s with flight := s.flight + l }

variable [DecidableEq ι]

def arrive (s : Sleepers ι) (i : ι) : Sleepers ι :=
  if i ∈ s.asleep then { s with asleep := s.asleep.erase i, awake := insert i s.awake, flight := s.flight.erase i }
  else { s with flight := s.flight.erase i, missed := s.missed + 1 }

def wait (s : Sleepers ι) (i : ι) : Sleepers ι := { s with asleep := insert i s.asleep, awake := s.awake.erase i }

def finish (s : Sleepers ι) (i : ι) : Sleepers ι := { s with asleep := s.asleep.erase i, awake := s.awake.erase i }

def leave (s : Sleepers ι) (i : ι) : Sleepers ι :=
  { s with
    asleep := s.asleep.erase i
    awake := s.awake.erase i
    missed := s.missed + if i ∈ s.awake then 1 else 0 }

lemma card_awake_le (s : Sleepers ι) (i : ι) : s.awake.card ≤ (s.awake.erase i).card + if i ∈ s.awake then 1 else 0 := by
  split_ifs with hi
  · exact (Finset.card_erase_add_one hi).ge
  · exact (congrArg Finset.card (Finset.erase_eq_of_notMem hi)).ge

end Sleepers

structure WaitQueue (ι : Type*) extends Sleepers ι where
  items : ℕ
  calls : List ι

namespace WaitQueue

variable {ι : Type*} {q : WaitQueue ι} {i : ι}

/-- Those who were called, or will be. -/
def pending (q : WaitQueue ι) : Multiset ι := q.calls + q.flight

def take (q : WaitQueue ι) : WaitQueue ι := { q with items := q.items - 1 }

def put (q : WaitQueue ι) : WaitQueue ι := ⟨q.callAll q.calls.getLast?.toList, q.items + 1, q.calls.dropLast⟩

/-- Calls everybody, and there will be no more items. -/
def shut (q : WaitQueue ι) : WaitQueue ι := ⟨q.callAll q.calls.reverse, 0, []⟩

/-- Whoever sleeps will be called, and while somebody is left to call, there is a call or somebody awake for every item, but for
the calls that were missed. -/
structure Served (q : WaitQueue ι) : Prop where
  called : ∀ i ∈ q.asleep, i ∈ q.pending
  apart : ∀ i ∈ q.asleep, i ∉ q.awake
  enough : q.calls = [] ∨ q.items ≤ q.flight.card + q.awake.card + q.missed

/-- Everybody is called once, and only while asleep. -/
structure Orderly (q : WaitQueue ι) : Prop where
  nodup : q.pending.Nodup
  asleep : ∀ i ∈ q.pending, i ∈ q.asleep
  missed : q.missed = 0

lemma pending_put (q : WaitQueue ι) : q.put.pending = q.pending := by
  have hcalls : q.calls.dropLast ++ q.calls.getLast?.toList = q.calls := by
    cases hlast : q.calls.getLast? with
    | some i => exact List.dropLast_append_getLast? i hlast
    | none => rw [List.getLast?_eq_none_iff.mp hlast]; rfl
  calc ((q.calls.dropLast : Multiset ι) + (q.flight + (q.calls.getLast?.toList : Multiset ι)))
      = ((q.calls.dropLast : Multiset ι) + (q.calls.getLast?.toList : Multiset ι)) + q.flight := by ac_rfl
    _ = q.pending := by rw [Multiset.coe_add, hcalls]; rfl

lemma pending_shut (q : WaitQueue ι) : q.shut.pending = q.pending := by
  calc ((([] : List ι) : Multiset ι) + (q.flight + (q.calls.reverse : Multiset ι)))
      = (q.calls.reverse : Multiset ι) + q.flight := by rw [Multiset.coe_nil, zero_add, add_comm]
    _ = q.pending := by rw [Multiset.coe_reverse]; rfl

namespace Served

lemma take (h : q.Served) : q.take.Served := ⟨h.called, h.apart, h.enough.imp_right ((Nat.sub_le _ _).trans ·)⟩

lemma put (h : q.Served) : q.put.Served := by
  refine ⟨fun j hj => ?_, h.apart, ?_⟩
  · rw [pending_put]
    exact h.called j hj
  · cases hlast : q.calls.getLast? with
    | none =>
      have hnil := List.getLast?_eq_none_iff.mp hlast
      exact .inl (congrArg List.dropLast hnil)
    | some i =>
      have henough := h.enough.resolve_left fun hnil => by rw [hnil] at hlast; cases hlast
      refine .inr ?_
      simp only [WaitQueue.put, Sleepers.callAll, hlast, Option.toList_some, Multiset.card_add, Multiset.coe_card, List.length_singleton]
      omega

lemma shut (h : q.Served) : q.shut.Served := by
  refine ⟨fun j hj => ?_, h.apart, .inl rfl⟩
  rw [pending_shut]
  exact h.called j hj

lemma items_le (h : q.Served) (hi : i ∈ q.asleep) (hflight : i ∉ q.flight) : q.items ≤ q.flight.card + q.awake.card + q.missed := by
  refine h.enough.resolve_left fun hnil => ?_
  obtain hmem | hmem := Multiset.mem_add.mp (h.called i hi)
  · rw [hnil] at hmem
    exact Multiset.notMem_zero i hmem
  · exact hflight hmem

end Served

namespace Orderly

lemma notMem_pending (h : q.Orderly) (hi : i ∉ q.asleep) : i ∉ q.pending := fun hmem => hi (h.asleep i hmem)

lemma take (h : q.Orderly) : q.take.Orderly := ⟨h.nodup, h.asleep, h.missed⟩

lemma put (h : q.Orderly) : q.put.Orderly := by
  refine ⟨?_, fun j hj => h.asleep j ?_, h.missed⟩
  · rw [pending_put]
    exact h.nodup
  · rwa [pending_put] at hj

lemma shut (h : q.Orderly) : q.shut.Orderly := by
  refine ⟨?_, fun j hj => h.asleep j ?_, h.missed⟩
  · rw [pending_shut]
    exact h.nodup
  · rwa [pending_shut] at hj

end Orderly

variable [DecidableEq ι]

/-- Takes an item, or asks to be called. -/
def look (q : WaitQueue ι) (i : ι) : WaitQueue ι :=
  if q.items = 0 then ⟨q.wait i, 0, q.calls ++ [i]⟩ else ⟨q.finish i, q.items - 1, q.calls⟩

def arrive (q : WaitQueue ι) (i : ι) : WaitQueue ι := { q with toSleepers := q.toSleepers.arrive i }

def leave (q : WaitQueue ι) (i : ι) : WaitQueue ι := { q with toSleepers := q.toSleepers.leave i }

/-- Finds that there will be no more items. -/
def giveUp (q : WaitQueue ι) (i : ι) : WaitQueue ι := { q with toSleepers := q.toSleepers.finish i }

lemma pending_arrive (hi : i ∈ q.flight) : (q.arrive i).pending = q.pending.erase i := by
  have hflight : (q.arrive i).flight = q.flight.erase i := by
    rw [arrive, Sleepers.arrive]
    split_ifs <;> rfl
  rw [pending, hflight]
  exact (Multiset.erase_add_right_pos _ hi).symm

namespace Served

lemma arrive (h : q.Served) (hi : i ∈ q.flight) : (q.arrive i).Served := by
  have hcalled {j : ι} (hj : j ∈ q.asleep) (hne : j ≠ i) : j ∈ (q.arrive i).pending := by
    rw [pending_arrive hi]
    exact (Multiset.mem_erase_of_ne hne).mpr (h.called j hj)
  have hcard := Multiset.card_erase_add_one hi
  by_cases hasleep : i ∈ q.asleep
  · have hq : q.arrive i = ⟨⟨q.asleep.erase i, insert i q.awake, q.flight.erase i, q.missed⟩, q.items, q.calls⟩ := by
      rw [WaitQueue.arrive, Sleepers.arrive, if_pos hasleep]
    rw [hq] at hcalled ⊢
    refine ⟨fun j hj => ?_, fun j hj hmem => ?_, h.enough.imp_right fun henough => ?_⟩
    · obtain ⟨hne, hj⟩ := Finset.mem_erase.mp hj
      exact hcalled hj hne
    · obtain ⟨hne, hj⟩ := Finset.mem_erase.mp hj
      exact h.apart j hj (Finset.mem_of_mem_insert_of_ne hmem hne)
    · rw [Finset.card_insert_of_notMem (h.apart i hasleep)]
      dsimp only
      omega
  · have hq : q.arrive i = ⟨⟨q.asleep, q.awake, q.flight.erase i, q.missed + 1⟩, q.items, q.calls⟩ := by
      rw [WaitQueue.arrive, Sleepers.arrive, if_neg hasleep]
    rw [hq] at hcalled ⊢
    refine ⟨fun j hj => hcalled hj ?_, h.apart, h.enough.imp_right fun henough => ?_⟩
    · rintro rfl
      exact hasleep hj
    · dsimp only
      omega

lemma look (h : q.Served) (i : ι) : (q.look i).Served := by
  rw [WaitQueue.look]
  split_ifs with hitems
  · refine ⟨fun j hj => ?_, fun j hj => ?_, .inr (Nat.zero_le _)⟩
    · obtain rfl | hj := Finset.mem_insert.mp hj
      · exact Multiset.mem_add.mpr (.inl (List.mem_append_right _ (List.mem_singleton_self _)))
      · refine Multiset.mem_add.mpr ((Multiset.mem_add.mp (h.called j hj)).imp_left fun hmem => ?_)
        exact List.mem_append_left _ hmem
    · obtain rfl | hj := Finset.mem_insert.mp hj
      · exact Finset.notMem_erase _ _
      · exact fun hmem => h.apart j hj (Finset.mem_of_mem_erase hmem)
  · refine ⟨fun j hj => h.called j (Finset.mem_of_mem_erase hj), fun j hj hmem => ?_, h.enough.imp_right fun henough => ?_⟩
    · exact h.apart j (Finset.mem_of_mem_erase hj) (Finset.mem_of_mem_erase hmem)
    · have hcard := q.card_awake_le i
      dsimp only [Sleepers.finish]
      split_ifs at hcard <;> omega

lemma leave (h : q.Served) (i : ι) : (q.leave i).Served := by
  refine ⟨fun j hj => h.called j (Finset.mem_of_mem_erase hj), fun j hj hmem => ?_, h.enough.imp_right fun henough => ?_⟩
  · exact h.apart j (Finset.mem_of_mem_erase hj) (Finset.mem_of_mem_erase hmem)
  · have hcard := q.card_awake_le i
    dsimp only [WaitQueue.leave, Sleepers.leave]
    omega

lemma giveUp (h : q.Served) (hnil : q.calls = []) (i : ι) : (q.giveUp i).Served := by
  refine ⟨fun j hj => h.called j (Finset.mem_of_mem_erase hj), fun j hj hmem => ?_, .inl hnil⟩
  exact h.apart j (Finset.mem_of_mem_erase hj) (Finset.mem_of_mem_erase hmem)

end Served

namespace Orderly

lemma arrive (h : q.Orderly) (hi : i ∈ q.flight) : (q.arrive i).Orderly := by
  have hasleep : i ∈ q.asleep := h.asleep i (Multiset.mem_add.mpr (.inr hi))
  refine ⟨?_, fun j hj => ?_, ?_⟩
  · rw [pending_arrive hi]
    exact h.nodup.erase i
  · rw [pending_arrive hi] at hj
    obtain ⟨hne, hj⟩ := h.nodup.mem_erase_iff.mp hj
    rw [WaitQueue.arrive, Sleepers.arrive, if_pos hasleep]
    exact Finset.mem_erase.mpr ⟨hne, h.asleep j hj⟩
  · rw [WaitQueue.arrive, Sleepers.arrive, if_pos hasleep]
    exact h.missed

lemma look (h : q.Orderly) (hi : i ∉ q.asleep) : (q.look i).Orderly := by
  have hpending := h.notMem_pending hi
  rw [WaitQueue.look]
  split_ifs with hitems
  · have hlook : (⟨q.wait i, 0, q.calls ++ [i]⟩ : WaitQueue ι).pending = i ::ₘ q.pending := by
      rw [pending, ← Multiset.coe_add, add_right_comm, add_comm]
      rfl
    refine ⟨?_, fun j hj => ?_, h.missed⟩
    · rw [hlook]
      exact Multiset.nodup_cons.mpr ⟨hpending, h.nodup⟩
    · rw [hlook] at hj
      obtain rfl | hj := Multiset.mem_cons.mp hj
      · exact Finset.mem_insert_self _ _
      · exact Finset.mem_insert_of_mem (h.asleep j hj)
  · refine ⟨h.nodup, fun j hj => Finset.mem_erase.mpr ⟨?_, h.asleep j hj⟩, h.missed⟩
    rintro rfl
    exact hpending hj

lemma giveUp (h : q.Orderly) (hi : i ∉ q.asleep) : (q.giveUp i).Orderly := by
  refine ⟨h.nodup, fun j hj => Finset.mem_erase.mpr ⟨?_, h.asleep j hj⟩, h.missed⟩
  rintro rfl
  exact h.notMem_pending hi hj

end Orderly

/-- In an orderly run nobody looks before being woken, and nobody leaves. -/
inductive Step (orderly : Prop) (q : WaitQueue ι) : WaitQueue ι → Prop
  | put : Step orderly q q.put
  | take : Step orderly q q.take
  | shut : Step orderly q q.shut
  | arrive {i : ι} (hi : i ∈ q.flight) : Step orderly q (q.arrive i)
  | look {i : ι} (hi : orderly → i ∉ q.asleep) : Step orderly q (q.look i)
  | giveUp {i : ι} (hnil : q.calls = []) (hi : orderly → i ∉ q.asleep) : Step orderly q (q.giveUp i)
  | leave {i : ι} (h : ¬ orderly) : Step orderly q (q.leave i)

variable {orderly : Prop} {q' : WaitQueue ι}

lemma Served.step (h : q.Served) (hs : Step orderly q q') : q'.Served := by
  cases hs with
  | put => exact h.put
  | take => exact h.take
  | shut => exact h.shut
  | arrive hi => exact h.arrive hi
  | look _ => exact h.look _
  | giveUp hnil _ => exact h.giveUp hnil _
  | leave _ => exact h.leave _

lemma Orderly.step (h : q.Orderly) (ho : orderly) (hs : Step orderly q q') : q'.Orderly := by
  cases hs with
  | put => exact h.put
  | take => exact h.take
  | shut => exact h.shut
  | arrive hi => exact h.arrive hi
  | look hi => exact h.look (hi ho)
  | giveUp _ hi => exact h.giveUp (hi ho)
  | leave hleave => exact absurd ho hleave

lemma Served.run (h : q.Served) (hrun : Relation.ReflTransGen (Step orderly) q q') : q'.Served := by
  induction hrun with
  | refl => exact h
  | tail _ hs ih => exact ih.step hs

lemma Orderly.run (h : q.Orderly) (ho : orderly) (hrun : Relation.ReflTransGen (Step orderly) q q') : q'.Orderly := by
  induction hrun with
  | refl => exact h
  | tail _ hs ih => exact ih.step ho hs

end WaitQueue

end Pqsnet.Checked
