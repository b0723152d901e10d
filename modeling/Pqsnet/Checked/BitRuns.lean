import Mathlib.Tactic

/-! Runs of set bits in a machine word, found by the carries of an addition, and the positions that a
list of ranges covers. -/

namespace Pqsnet.Checked

variable {w : ℕ} {x : BitVec w} {i j : ℕ}

def lowestOne (x : BitVec w) : Option ℕ := (List.range w).find? x.getLsbD

lemma lowestOne_eq_some : lowestOne x = some i ↔ i < w ∧ x.getLsbD i = true ∧ ∀ s < i, x.getLsbD s = false := by
  rw [lowestOne, List.find?_range_eq_some, List.mem_range]
  simp only [Bool.not_eq_true']
  tauto

lemma lowestOne_eq_none : lowestOne x = none ↔ ∀ s < w, x.getLsbD s = false := by
  rw [lowestOne, List.find?_range_eq_none]
  simp only [Bool.not_eq_true']

lemma eq_zero_of_lowestOne (h : lowestOne x = none) : x = 0#w := by
  apply BitVec.eq_of_getLsbD_eq
  intro s hs
  rw [lowestOne_eq_none.mp h s hs, BitVec.getLsbD_zero]

lemma getLsbD_one_shiftLeft (i t : ℕ) (h : i < w) : (1#w <<< i).getLsbD t = decide (i = t) := by
  rw [← BitVec.twoPow_eq, BitVec.getLsbD_twoPow]
  simp [h]

lemma carry_le (hi : i < w) {t : ℕ} (ht : t ≤ i) : BitVec.carry t x (1#w <<< i) false = false := by
  induction t with
  | zero => simp
  | succ t ih =>
    have hn : (1#w <<< i).getLsbD t = false := by
      rw [getLsbD_one_shiftLeft i t hi, decide_eq_false_iff_not]
      omega
    rw [BitVec.carry_succ, hn, ih (by omega)]
    simp [Bool.atLeastTwo]

lemma getLsbD_carried (hi : i < w) {t : ℕ} (ht : t < w) : (x + 1#w <<< i).getLsbD t =
    (x.getLsbD t ^^ (decide (i = t) ^^ BitVec.carry t x (1#w <<< i) false)) := by
  rw [BitVec.getLsbD_add ht, getLsbD_one_shiftLeft i t hi]

/-- The carry of a bit added at the set bit `i` runs up to the first bit that it sets, so every bit on
the way is set. -/
lemma getLsbD_of_carried (hi : i < w) (hx : x.getLsbD i = true) {k : ℕ} (hk : k ≤ w)
    (hc : ∀ t, i < t → t < k → (x + 1#w <<< i).getLsbD t = false) {s : ℕ} (hs : i ≤ s) (hsk : s < k) :
    x.getLsbD s = true ∧ BitVec.carry (s + 1) x (1#w <<< i) false = true := by
  induction s, hs using Nat.le_induction with
  | base =>
    refine ⟨hx, ?_⟩
    rw [BitVec.carry_succ, hx, getLsbD_one_shiftLeft i i hi, carry_le hi le_rfl]
    simp [Bool.atLeastTwo]
  | succ s hs ih =>
    obtain ⟨-, hcarry⟩ := ih (by omega)
    have hbit : x.getLsbD (s + 1) = true := by
      have hne : decide (i = s + 1) = false := by
        rw [decide_eq_false_iff_not]
        omega
      have h := hc (s + 1) (by omega) hsk
      rw [getLsbD_carried hi (by omega), hcarry, hne] at h
      simpa using h
    refine ⟨hbit, ?_⟩
    rw [BitVec.carry_succ, hbit, hcarry]
    simp [Bool.atLeastTwo]

lemma lowestOne_carried_some (hi : lowestOne x = some i) (hj : lowestOne (x + 1#w <<< i) = some j) :
    i < j ∧ j < w ∧ (∀ s, i ≤ s → s < j → x.getLsbD s = true) ∧ x.getLsbD j = false := by
  obtain ⟨hiw, hix, hlow⟩ := lowestOne_eq_some.mp hi
  obtain ⟨hjw, hjx, hjlow⟩ := lowestOne_eq_some.mp hj
  have hrun : ∀ s, i ≤ s → s < j → x.getLsbD s = true ∧ BitVec.carry (s + 1) x (1#w <<< i) false = true :=
    fun s hs hsj => getLsbD_of_carried hiw hix hjw.le (fun t _ ht => hjlow t ht) hs hsj
  have hij : i < j := by
    by_contra hle
    rw [getLsbD_carried hiw hjw, carry_le hiw (by omega)] at hjx
    rcases Nat.lt_or_eq_of_le (not_lt.mp hle) with hlt | rfl
    · rw [hlow j hlt] at hjx
      simp only [Bool.false_bne, Bool.bne_false, decide_eq_true_eq] at hjx
      omega
    · simp [hix] at hjx
  refine ⟨hij, hjw, fun s hs hsj => (hrun s hs hsj).1, ?_⟩
  obtain ⟨k, rfl⟩ := Nat.exists_eq_add_one_of_ne_zero (by omega : j ≠ 0)
  have hne : decide (i = k + 1) = false := by
    rw [decide_eq_false_iff_not]
    omega
  rw [getLsbD_carried hiw hjw, (hrun k (by omega) (by omega)).2, hne] at hjx
  simpa using hjx

lemma lowestOne_carried_none (hi : lowestOne x = some i) (hj : lowestOne (x + 1#w <<< i) = none) {s : ℕ}
    (hs : i ≤ s) (hw : s < w) : x.getLsbD s = true := by
  obtain ⟨hiw, hix, -⟩ := lowestOne_eq_some.mp hi
  exact (getLsbD_of_carried hiw hix le_rfl (fun t _ ht => lowestOne_eq_none.mp hj t ht) hs hw).1

/-- The positions of the set bits, in order. -/
def ones (x : BitVec w) : List ℕ := (List.range w).filter x.getLsbD

@[simp] lemma mem_ones {p : ℕ} : p ∈ ones x ↔ x.getLsbD p = true := by
  simp only [ones, List.mem_filter, List.mem_range, and_iff_right_iff_imp]
  exact BitVec.lt_of_getLsbD

@[simp] lemma ones_zero : ones (0#w) = [] := by simp [ones]

lemma ones_sorted (x : BitVec w) : (ones x).Pairwise (· < ·) := List.pairwise_lt_range.filter _

lemma ones_length_le (x : BitVec w) : (ones x).length ≤ w :=
  (List.length_filter_le x.getLsbD (List.range w)).trans_eq List.length_range

lemma ones_or_length (x y : BitVec w) : (ones (x ||| y)).length = (ones x).length + (ones (~~~x &&& y)).length := by
  have hsplit : ∀ l : List ℕ, (∀ i ∈ l, i < w) → (l.filter (x ||| y).getLsbD).length =
      (l.filter x.getLsbD).length + (l.filter (~~~x &&& y).getLsbD).length := by
    intro l
    induction l with
    | nil => exact fun _ => rfl
    | cons i l ih =>
      intro hl
      have hi : i < w := hl i List.mem_cons_self
      have hrest := ih fun j hj => hl j (List.mem_cons_of_mem _ hj)
      have hnot : (~~~x &&& y).getLsbD i = (!x.getLsbD i && y.getLsbD i) := by
        rw [BitVec.getLsbD_and, BitVec.getLsbD_not, decide_eq_true hi, Bool.true_and]
      simp only [List.filter_cons, BitVec.getLsbD_or, hnot]
      cases x.getLsbD i <;> cases y.getLsbD i <;> simp <;> omega
  exact hsplit _ fun i hi => List.mem_range.mp hi

lemma getLsbD_clear_low {t : ℕ} : (x &&& BitVec.allOnes w <<< j).getLsbD t =
    (x.getLsbD t && decide (j ≤ t)) := by
  by_cases ht : t < w
  · by_cases hj : t < j
    · simp [hj]
    · simp [ht, hj]
      omega
  · rw [BitVec.getLsbD_of_ge _ _ (by omega), BitVec.getLsbD_of_ge _ _ (by omega), Bool.false_and]

lemma ones_run (hlow : ∀ s < i, x.getLsbD s = false) (hij : i ≤ j)
    (hrun : ∀ s, i ≤ s → s < j → x.getLsbD s = true) :
    ones x = List.range' i (j - i) ++ ones (x &&& BitVec.allOnes w <<< j) := by
  have hmem : ∀ p, p ∈ ones (x &&& BitVec.allOnes w <<< j) ↔ x.getLsbD p = true ∧ j ≤ p := by
    intro p
    rw [mem_ones, getLsbD_clear_low, Bool.and_eq_true, decide_eq_true_eq]
  apply (ones_sorted x).eq_of_mem_iff
  · rw [List.pairwise_append]
    refine ⟨List.pairwise_lt_range', ones_sorted _, ?_⟩
    intro p hp q hq
    rw [List.mem_range'_1] at hp
    rw [hmem] at hq
    omega
  · intro p
    rw [List.mem_append, List.mem_range'_1, hmem, mem_ones]
    constructor
    · intro hp
      by_cases hpj : j ≤ p
      · exact .inr ⟨hp, hpj⟩
      · have hip : i ≤ p := by
          by_contra h
          rw [hlow p (by omega)] at hp
          cases hp
        exact .inl (by omega)
    · rintro (hp | hp)
      · exact hrun p hp.1 (by omega)
      · exact hp.1

/-- The positions of a list of half-open ranges, in order. -/
def cover (rs : List (ℕ × ℕ)) : List ℕ := rs.flatMap fun r => List.range' r.1 (r.2 - r.1)

@[simp] lemma cover_nil : cover [] = [] := rfl

@[simp] lemma cover_cons (r : ℕ × ℕ) (rs : List (ℕ × ℕ)) :
    cover (r :: rs) = List.range' r.1 (r.2 - r.1) ++ cover rs := rfl

@[simp] lemma cover_append (rs ts : List (ℕ × ℕ)) : cover (rs ++ ts) = cover rs ++ cover ts :=
  List.flatMap_append

lemma mem_cover {rs : List (ℕ × ℕ)} {p : ℕ} : p ∈ cover rs ↔ ∃ r ∈ rs, r.1 ≤ p ∧ p < r.2 := by
  simp only [cover, List.mem_flatMap, List.mem_range'_1]
  constructor
  · rintro ⟨r, hr, h1, h2⟩
    exact ⟨r, hr, h1, by omega⟩
  · rintro ⟨r, hr, h1, h2⟩
    exact ⟨r, hr, h1, by omega⟩

lemma pairwise_of_cover_sorted {rs : List (ℕ × ℕ)} (h : (cover rs).Pairwise (· < ·)) (hne : ∀ r ∈ rs, r.1 < r.2) :
    rs.Pairwise fun r r' => r.2 ≤ r'.1 := by
  induction rs with
  | nil => exact List.Pairwise.nil
  | cons r rs ih =>
    rw [cover_cons, List.pairwise_append] at h
    obtain ⟨-, hrest, hbefore⟩ := h
    rw [List.forall_mem_cons] at hne
    refine List.pairwise_cons.mpr ⟨fun r' hr' => ?_, ih hrest hne.2⟩
    have hlt := hbefore (r.2 - 1) (List.mem_range'_1.mpr (by omega)) r'.1 (mem_cover.mpr ⟨r', hr', le_rfl, hne.2 r' hr'⟩)
    omega

lemma range'_join {a b c : ℕ} (hab : a ≤ b) (hbc : b ≤ c) :
    List.range' a (b - a) ++ List.range' b (c - b) = List.range' a (c - a) := by
  have h := List.range'_append_1 (s := a) (m := b - a) (n := c - b)
  rwa [show a + (b - a) = b by omega, show b - a + (c - b) = c - a by omega] at h

lemma filter_range'_congr {s n s' n' : ℕ} {P Q : ℕ → Bool}
    (h : ∀ p, (s ≤ p ∧ p < s + n) ∧ P p = true ↔ (s' ≤ p ∧ p < s' + n') ∧ Q p = true) :
    (List.range' s n).filter P = (List.range' s' n').filter Q := by
  apply List.Pairwise.eq_of_mem_iff (r := (· < ·))
  · exact List.Pairwise.filter _ List.pairwise_lt_range'
  · exact List.Pairwise.filter _ List.pairwise_lt_range'
  · intro p
    rw [List.mem_filter, List.mem_filter, List.mem_range'_1, List.mem_range'_1, h]

end Pqsnet.Checked
