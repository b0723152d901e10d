import Mathlib.Algebra.BigOperators.Group.List.Basic
import Mathlib.Tactic

/-! Tables of entries of which one is replaced at a time. -/

namespace Pqsnet.Checked

variable {α M : Type*} {l : List α} {i j : ℕ} {x y z : α}

lemma getElem?_set_cases (h : (l.set i y)[j]? = some z) : (j = i ∧ z = y) ∨ (j ≠ i ∧ l[j]? = some z) := by
  by_cases hji : j = i
  · subst hji
    rw [List.getElem?_set_self (by simpa using (List.getElem?_eq_some_iff.mp h).1)] at h
    exact .inl ⟨rfl, (Option.some.inj h).symm⟩
  · rw [List.getElem?_set_ne (Ne.symm hji)] at h
    exact .inr ⟨hji, h⟩

lemma getElem?_set_of_getElem? (h : l[i]? = some x) (y : α) : (l.set i y)[i]? = some y :=
  List.getElem?_set_self (List.getElem?_eq_some_iff.mp h).1

lemma set_of_getElem? (h : l[i]? = some x) : l.set i x = l := by
  obtain ⟨hi, rfl⟩ := List.getElem?_eq_some_iff.mp h
  exact List.set_getElem_self hi

lemma sum_map_set [AddCommMonoid M] (f : α → M) (h : l[i]? = some x) (y : α) :
    ((l.set i y).map f).sum + f x = (l.map f).sum + f y := by
  induction l generalizing i with
  | nil => cases h
  | cons a l ih =>
    cases i with
    | zero =>
      obtain rfl : a = x := Option.some.inj h
      rw [List.set_cons_zero, List.map_cons, List.map_cons, List.sum_cons, List.sum_cons]
      abel
    | succ i =>
      rw [List.set_cons_succ, List.map_cons, List.map_cons, List.sum_cons, List.sum_cons, add_assoc, ih h, add_assoc]

lemma countP_set (p : α → Bool) (h : l[i]? = some x) (y : α) : (l.set i y).countP p + (p x).toNat = l.countP p + (p y).toNat := by
  have hsum (l : List α) : l.countP p = (l.map fun x => (p x).toNat).sum := by
    induction l with
    | nil => rfl
    | cons a l ih =>
      rw [List.countP_cons, ih, List.map_cons, List.sum_cons, add_comm]
      cases p a <;> rfl
  rw [hsum, hsum]
  exact sum_map_set (fun x => (p x).toNat) h y

lemma modify_eq_set (h : l[i]? = some x) (f : α → α) : l.modify i f = l.set i (f x) := by
  apply List.ext_getElem?
  intro k
  by_cases hk : k = i
  · subst hk
    rw [List.getElem?_modify_eq, h, getElem?_set_of_getElem? h]
    rfl
  · rw [List.getElem?_modify_ne f l (Ne.symm hk), List.getElem?_set_ne (Ne.symm hk)]

lemma le_sum_map (f : α → ℕ) (h : l[i]? = some x) : f x ≤ (l.map f).sum :=
  List.single_le_sum (fun _ _ => Nat.zero_le _) _ (List.mem_map.mpr ⟨x, List.mem_of_getElem? h, rfl⟩)

lemma mem_sum_map {β : Type*} {f : α → Multiset β} {b : β} : b ∈ (l.map f).sum ↔ ∃ x ∈ l, b ∈ f x := by
  induction l with
  | nil => simp
  | cons x l ih => simp [ih]

lemma add_le_sum_map (f : α → ℕ) (hij : i ≠ j) (hx : l[i]? = some x) (hy : l[j]? = some y) : f x + f y ≤ (l.map f).sum := by
  induction l generalizing i j with
  | nil => cases hx
  | cons a l ih =>
    rw [List.map_cons, List.sum_cons]
    cases i with
    | zero =>
      obtain rfl : a = x := Option.some.inj hx
      cases j with
      | zero => exact absurd rfl hij
      | succ j => exact Nat.add_le_add_left (le_sum_map f (i := j) hy) _
    | succ i =>
      cases j with
      | zero =>
        obtain rfl : a = y := Option.some.inj hy
        rw [add_comm]
        exact Nat.add_le_add_left (le_sum_map f (i := i) hx) _
      | succ j => exact (ih (fun h => hij (congrArg _ h)) hx hy).trans (Nat.le_add_left _ _)

lemma exists_add_mod_eq {a n : ℕ} (h : i < n) : ∃ t < n, (a + t) % n = i := by
  have ha := Nat.mod_lt a (Nat.zero_lt_of_lt h)
  obtain hle | hlt := le_or_gt (a % n) i
  · refine ⟨i - a % n, by omega, ?_⟩
    rw [Nat.add_mod, Nat.mod_eq_of_lt (a := i - a % n) (by omega), Nat.add_sub_cancel' hle, Nat.mod_eq_of_lt h]
  · refine ⟨i + n - a % n, by omega, ?_⟩
    rw [Nat.add_mod, Nat.mod_eq_of_lt (a := i + n - a % n) (by omega), Nat.add_sub_cancel' (by omega), Nat.add_mod_right,
      Nat.mod_eq_of_lt h]

end Pqsnet.Checked
