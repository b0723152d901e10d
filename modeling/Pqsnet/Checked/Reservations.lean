import Mathlib.Logic.Relation
import Mathlib.Data.Set.Insert
import Mathlib.Data.List.Nodup

/-! Reservations: each name that is reserved is held under one key until it is released or handed over. -/

namespace Pqsnet.Checked

variable {κ ι : Type} [DecidableEq κ]

/-- The names that are reserved, who holds them, and those handed over, one by one. -/
structure Ledger (κ ι : Type) where
  reserved : Set ι
  holder : κ → Option ι
  handed : List ι

namespace Ledger

variable {l l' : Ledger κ ι} {k : κ} {i : ι}

inductive Step (l : Ledger κ ι) : Ledger κ ι → Prop
  | reserve {k : κ} {i : ι} (hi : i ∉ l.reserved) (hk : l.holder k = none) :
      Step l ⟨insert i l.reserved, Function.update l.holder k (some i), l.handed⟩
  | hand {k : κ} {i : ι} (hk : l.holder k = some i) :
      Step l ⟨l.reserved, Function.update l.holder k none, l.handed ++ [i]⟩
  | release {k : κ} {i : ι} (hk : l.holder k = some i) :
      Step l ⟨l.reserved \ {i}, Function.update l.holder k none, l.handed⟩

/-- No reserved name is lost, and none has two owners. -/
structure Balanced (l : Ledger κ ι) : Prop where
  mem : ∀ i, i ∈ l.reserved ↔ (∃ k, l.holder k = some i) ∨ i ∈ l.handed
  unique : ∀ i k k', l.holder k = some i → l.holder k' = some i → k = k'
  apart : ∀ i k, l.holder k = some i → i ∉ l.handed
  nodup : l.handed.Nodup

lemma holder_emptied {f : κ → Option ι} {k' : κ} (h : Function.update f k none k' = some i) : k' ≠ k ∧ f k' = some i := by
  rw [Function.update_apply] at h
  split at h
  · cases h
  · exact ⟨by assumption, h⟩

lemma exists_emptied {f : κ → Option ι} {j : ι} (hk : f k = some i) (hne : j ≠ i) :
    (∃ k', Function.update f k none k' = some j) ↔ ∃ k', f k' = some j := by
  constructor
  · rintro ⟨k', h⟩
    exact ⟨k', (holder_emptied h).2⟩
  · rintro ⟨k', h⟩
    refine ⟨k', ?_⟩
    rwa [Function.update_of_ne]
    rintro rfl
    rw [hk, Option.some_inj] at h
    exact hne h.symm

lemma Balanced.not_emptied (h : l.Balanced) (hk : l.holder k = some i) :
    ¬ ∃ k', Function.update l.holder k none k' = some i := by
  rintro ⟨k', hk'⟩
  obtain ⟨hne, hold⟩ := holder_emptied hk'
  exact hne (h.unique i k' k hold hk)

lemma Balanced.reserve (h : l.Balanced) (hi : i ∉ l.reserved) (hk : l.holder k = none) :
    Balanced ⟨insert i l.reserved, Function.update l.holder k (some i), l.handed⟩ := by
  have hfree : ∀ k', l.holder k' ≠ some i := fun k' hk' => hi ((h.mem i).mpr (.inl ⟨k', hk'⟩))
  have hheld : ∀ j k', Function.update l.holder k (some i) k' = some j → k' = k ∧ j = i ∨ k' ≠ k ∧ l.holder k' = some j := by
    intro j k' hj
    rw [Function.update_apply] at hj
    split at hj
    · exact .inl ⟨by assumption, (Option.some_inj.mp hj).symm⟩
    · exact .inr ⟨by assumption, hj⟩
  refine ⟨fun j => ?_, fun j k₁ k₂ h₁ h₂ => ?_, fun j k' hj => ?_, h.nodup⟩
  · constructor
    · rintro (rfl | hj)
      · exact .inl ⟨k, Function.update_self ..⟩
      rcases (h.mem j).mp hj with ⟨k', hk'⟩ | hd
      · have hne : k' ≠ k := by
          rintro rfl
          rw [hk] at hk'
          cases hk'
        exact .inl ⟨k', (Function.update_of_ne hne ..).trans hk'⟩
      · exact .inr hd
    · rintro (⟨k', hk'⟩ | hd)
      · rcases hheld j k' hk' with ⟨-, rfl⟩ | ⟨-, hold⟩
        · exact Set.mem_insert ..
        · exact Set.mem_insert_of_mem _ ((h.mem j).mpr (.inl ⟨k', hold⟩))
      · exact Set.mem_insert_of_mem _ ((h.mem j).mpr (.inr hd))
  · rcases hheld j k₁ h₁ with ⟨rfl, rfl⟩ | ⟨-, o₁⟩ <;> rcases hheld j k₂ h₂ with ⟨rfl, he⟩ | ⟨-, o₂⟩
    · rfl
    · exact absurd o₂ (hfree k₂)
    · exact absurd (he ▸ o₁) (hfree k₁)
    · exact h.unique j k₁ k₂ o₁ o₂
  · rcases hheld j k' hj with ⟨-, rfl⟩ | ⟨-, hold⟩
    · exact fun hd => hi ((h.mem j).mpr (.inr hd))
    · exact h.apart j k' hold

lemma Balanced.hand (h : l.Balanced) (hk : l.holder k = some i) :
    Balanced ⟨l.reserved, Function.update l.holder k none, l.handed ++ [i]⟩ := by
  refine ⟨fun j => ?_, fun j k₁ k₂ h₁ h₂ => h.unique j k₁ k₂ (holder_emptied h₁).2 (holder_emptied h₂).2, fun j k' hj => ?_, ?_⟩
  · by_cases hji : j = i
    · subst hji
      exact iff_of_true ((h.mem j).mpr (.inl ⟨k, hk⟩)) (.inr (by simp))
    · rw [exists_emptied hk hji, List.mem_append, List.mem_singleton, or_iff_left hji]
      exact h.mem j
  · obtain ⟨hne, hold⟩ := holder_emptied hj
    rw [List.mem_append, List.mem_singleton, not_or]
    refine ⟨h.apart j k' hold, ?_⟩
    rintro rfl
    exact hne (h.unique j k' k hold hk)
  · rw [← List.concat_eq_append]
    exact h.nodup.concat (h.apart i k hk)

lemma Balanced.release (h : l.Balanced) (hk : l.holder k = some i) :
    Balanced ⟨l.reserved \ {i}, Function.update l.holder k none, l.handed⟩ := by
  refine ⟨fun j => ?_, fun j k₁ k₂ h₁ h₂ => h.unique j k₁ k₂ (holder_emptied h₁).2 (holder_emptied h₂).2,
    fun j k' hj => h.apart j k' (holder_emptied hj).2, h.nodup⟩
  by_cases hji : j = i
  · subst hji
    refine iff_of_false (by simp) ?_
    rw [not_or]
    exact ⟨h.not_emptied hk, h.apart j k hk⟩
  · rw [exists_emptied hk hji, Set.mem_sdiff, Set.mem_singleton_iff, and_iff_left hji]
    exact h.mem j

lemma Balanced.step (h : l.Balanced) (hs : Step l l') : l'.Balanced := by
  cases hs with
  | reserve hi hk => exact h.reserve hi hk
  | hand hk => exact h.hand hk
  | release hk => exact h.release hk

lemma Balanced.steps (h : l.Balanced) (hs : Relation.ReflTransGen Step l l') : l'.Balanced := by
  induction hs with
  | refl => exact h
  | tail _ hs ih => exact ih.step hs

end Ledger

end Pqsnet.Checked
