import Mathlib.Data.Nat.Bitwise
import Mathlib.Tactic

/-! Tables that keep the highest number in each of their slots. -/

namespace Pqsnet.Checked

section Highest

variable {α ι : Type} [LinearOrder α] [DecidableEq ι] {slot : α → ι} {us : List α} {z u : α} {i : ι}

/-- The highest one of the numbers that belong to a slot, and `z` if there is none above it. -/
def highest (slot : α → ι) (z : α) (us : List α) (i : ι) : α := us.foldl (fun m u => if slot u = i then max m u else m) z

lemma highest_concat : highest slot z (us ++ [u]) i = if slot u = i then max (highest slot z us i) u else highest slot z us i :=
  List.foldl_concat _ _ _ _

lemma highest_lt_iff {c : α} : highest slot z us i < c ↔ z < c ∧ ∀ u ∈ us, slot u = i → u < c := by
  induction us generalizing z with
  | nil => simp [highest]
  | cons u us ih =>
    have hcons : highest slot z (u :: us) i = highest slot (if slot u = i then max z u else z) us i := rfl
    rw [hcons, ih, List.forall_mem_cons]
    split_ifs with hu
    · rw [max_lt_iff, and_assoc, imp_iff_right hu]
    · rw [iff_of_true (fun h => absurd h hu) trivial, true_and]

end Highest

section Reverse

variable {w k : ℕ} {x y : BitVec w}

/-- The last `k` bits of a number, the other way round. -/
def reverseLast (k : ℕ) (x : BitVec w) : ℕ := (x.reverse >>> (w - k)).toNat

lemma reverseLast_lt (hk : k ≤ w) : reverseLast k x < 2 ^ k := by
  rw [reverseLast, BitVec.toNat_ushiftRight, Nat.shiftRight_eq_div_pow, Nat.div_lt_iff_lt_mul (Nat.two_pow_pos _), ← pow_add,
    Nat.add_sub_cancel' hk]
  exact BitVec.isLt _

lemma testBit_reverseLast (hk : k ≤ w) (i : ℕ) : (reverseLast k x).testBit i = (decide (i < k) && x.toNat.testBit (k - 1 - i)) := by
  rw [reverseLast, BitVec.testBit_toNat, BitVec.getLsbD_ushiftRight, BitVec.getLsbD_reverse, BitVec.getMsbD_eq_getLsbD,
    BitVec.testBit_toNat]
  by_cases hi : i < k
  · rw [decide_eq_true hi, decide_eq_true (by omega), show w - 1 - (w - k + i) = k - 1 - i by omega]
  · rw [decide_eq_false hi, decide_eq_false (by omega), Bool.false_and, Bool.false_and]

/-- Numbers get the same slot if and only if they are the same in their last bits. -/
lemma reverseLast_eq_iff (hk : k ≤ w) : reverseLast k x = reverseLast k y ↔ x.toNat % 2 ^ k = y.toNat % 2 ^ k := by
  constructor
  · intro h
    apply Nat.eq_of_testBit_eq
    intro i
    rw [Nat.testBit_mod_two_pow, Nat.testBit_mod_two_pow]
    by_cases hi : i < k
    · have hbit := congrArg (Nat.testBit · (k - 1 - i)) h
      simp only [testBit_reverseLast hk, show k - 1 - i < k by omega, show k - 1 - (k - 1 - i) = i by omega, decide_true,
        Bool.true_and] at hbit
      rw [hbit]
    · rw [decide_eq_false hi, Bool.false_and, Bool.false_and]
  · intro h
    apply Nat.eq_of_testBit_eq
    intro i
    rw [testBit_reverseLast hk, testBit_reverseLast hk]
    by_cases hi : i < k
    · have hbit := congrArg (Nat.testBit · (k - 1 - i)) h
      simp only [Nat.testBit_mod_two_pow, show k - 1 - i < k by omega, decide_true, Bool.true_and] at hbit
      rw [hbit]
    · rw [decide_eq_false hi, Bool.false_and, Bool.false_and]

end Reverse

end Pqsnet.Checked
