import Pqsnet.Session.Desegmenter

/-! Which bytes `run_over_unset_ranges` hands to the copy closure, and which it marks. -/

namespace Pqsnet.Session.Desegmenter

open Checked Outcome

variable {ε : Type}

/-- The positions of the range that is pending up to `stop`. -/
def pend (start : Option ℕ) (stop : ℕ) : List ℕ := cover (flush start stop)

@[simp] lemma pend_none (stop : ℕ) : pend none stop = [] := rfl

@[simp] lemma pend_some (s stop : ℕ) : pend (some s) stop = List.range' s (stop - s) := by
  simp [pend, flush]

lemma pend_extend {start : Option ℕ} {b c : ℕ} (hs : ∀ s ∈ start, s ≤ b) (hbc : b ≤ c) :
    pend start b ++ (if start.isSome then List.range' b (c - b) else []) = pend start c := by
  cases start with
  | none => rfl
  | some s =>
    simp only [pend_some, Option.isSome_some, ↓reduceIte]
    exact range'_join (hs s rfl) hbc

lemma cover_getD (start : Option ℕ) (base : ℕ) {j : ℕ} (hs : ∀ s ∈ start, s ≤ base) :
    cover [(start.getD base, base + j)] = pend start base ++ List.range' base j := by
  cases start with
  | none => simp
  | some s =>
    have h := range'_join (hs s rfl) (Nat.le_add_right base j)
    rw [Nat.add_sub_cancel_left] at h
    simpa using h.symm

lemma map_add_range (base i n : ℕ) : (List.range' i n).map (base + ·) = List.range' (base + i) n :=
  List.map_add_range' i n 1

/-- What one word adds. The pending range grows by the whole word when no bit of it is new. -/
structure WordDone (base : ℕ) (x : BitVec 64) (start : Option ℕ) (calls : List (ℕ × ℕ)) (start' : Option ℕ) :
    Prop where
  covered : cover calls ++ pend start' (base + 64) =
    pend start (if x = 0#64 then base + 64 else base) ++ (ones x).map (base + ·)
  nonempty : ∀ r ∈ calls, r.1 < r.2
  start_lt : ∀ s ∈ start', s < base + 64
  skip : x = 0#64 → calls = [] ∧ start' = start
  goes_on : x ≠ 0#64 → start'.isSome = x.getLsbD 63

lemma flush_nonempty {start : Option ℕ} {base : ℕ} (hs : ∀ s ∈ start, s < base) :
    ∀ r ∈ flush start base, r.1 < r.2 := by
  cases start with
  | none => simp [flush]
  | some s => simpa [flush] using hs s rfl

section Pending

variable {start : Option ℕ} {base : ℕ} {x : BitVec 64}

lemma mem_pend {stop p : ℕ} : p ∈ pend start stop ↔ ∃ s ∈ start, s ≤ p ∧ p < stop := by
  cases start with
  | none => simp
  | some s =>
    rw [pend_some, List.mem_range'_1]
    simp only [Option.mem_def, Option.some.injEq, exists_eq_left']
    omega

lemma pend_sorted (start : Option ℕ) (stop : ℕ) : (pend start stop).Pairwise (· < ·) := by
  cases start with
  | none => exact List.Pairwise.nil
  | some s =>
    rw [pend_some]
    exact List.pairwise_lt_range'

lemma mem_map_ones {p : ℕ} : p ∈ (ones x).map (base + ·) ↔ ∃ t < 64, p = base + t ∧ x.getLsbD t := by
  rw [List.mem_map]
  constructor
  · rintro ⟨t, ht, rfl⟩
    have hbit := mem_ones.mp ht
    exact ⟨t, BitVec.lt_of_getLsbD hbit, rfl, hbit⟩
  · rintro ⟨t, -, rfl, hbit⟩
    exact ⟨t, mem_ones.mpr hbit, rfl⟩

lemma pend_ones_sorted (start : Option ℕ) (base : ℕ) (x : BitVec 64) :
    (pend start base ++ (ones x).map (base + ·)).Pairwise (· < ·) := by
  rw [List.pairwise_append]
  refine ⟨pend_sorted start base, ?_, fun p hp q hq => ?_⟩
  · rw [List.pairwise_map]
    exact (ones_sorted x).imp fun h => by omega
  · obtain ⟨s, -, -, hp⟩ := mem_pend.mp hp
    obtain ⟨t, -, rfl, -⟩ := mem_map_ones.mp hq
    omega

end Pending

section RunCalls

variable {start : Option ℕ} {base i j : ℕ}

lemma cover_runCalls (hs : ∀ s ∈ start, s < base) :
    cover (runCalls start base i j) = pend start base ++ (List.range' i (j - i)).map (base + ·) := by
  unfold runCalls
  split
  · rename_i h0
    rw [cover_getD start base (fun s h => (hs s h).le), map_add_range, h0, Nat.sub_zero, Nat.add_zero]
  · rw [cover_append, map_add_range, ← pend, cover_cons, cover_nil, List.append_nil, Nat.add_sub_add_left]

lemma runCalls_nonempty (hs : ∀ s ∈ start, s < base) (hij : i < j) :
    ∀ r ∈ runCalls start base i j, r.1 < r.2 := by
  intro r hr
  unfold runCalls at hr
  split at hr
  · rw [List.mem_singleton.mp hr]
    cases start with
    | none => simp only [Option.getD_none]; omega
    | some s => have := hs s rfl; simp only [Option.getD_some]; omega
  · rcases List.mem_append.mp hr with hr | hr
    · exact flush_nonempty hs r hr
    · rw [List.mem_singleton.mp hr]
      simp only
      omega

end RunCalls

section Runs

variable {start start' : Option ℕ} {base i j : ℕ} {x : BitVec 64} {rest : List (ℕ × ℕ)}

lemma WordDone.run (hs : ∀ s ∈ start, s < base) (hi : lowestOne x = some i) (hj : lowestOne (x + 1#64 <<< i) = some j)
    (h : WordDone base (x &&& BitVec.allOnes 64 <<< j) none rest start') :
    WordDone base x start (runCalls start base i j ++ rest) start' := by
  obtain ⟨hiw, hix, hlow⟩ := lowestOne_eq_some.mp hi
  obtain ⟨hij, hjw, hrun, hjx⟩ := lowestOne_carried_some hi hj
  have hx : x ≠ 0#64 := by
    rintro rfl
    simp at hix
  have hcov := h.covered
  rw [pend_none, List.nil_append] at hcov
  have htop : (x &&& BitVec.allOnes 64 <<< j).getLsbD 63 = x.getLsbD 63 := by
    rw [getLsbD_clear_low, decide_eq_true (by omega : j ≤ 63), Bool.and_true]
  refine ⟨?_, ?_, h.start_lt, fun h => absurd h hx, fun _ => ?_⟩
  · rw [cover_append, List.append_assoc, hcov, cover_runCalls hs, if_neg hx, ones_run hlow hij.le hrun, List.map_append,
      List.append_assoc]
  · rw [List.forall_mem_append]
    exact ⟨runCalls_nonempty hs hij, h.nonempty⟩
  · by_cases h0 : x &&& BitVec.allOnes 64 <<< j = 0#64
    · rw [(h.skip h0).2, ← htop, h0]
      simp
    · rw [h.goes_on h0, htop]

lemma ones_carried_none (hi : lowestOne x = some i) (hj : lowestOne (x + 1#64 <<< i) = none) :
    ones x = List.range' i (64 - i) := by
  obtain ⟨hiw, -, hlow⟩ := lowestOne_eq_some.mp hi
  have h := ones_run hlow hiw.le fun s hs hw => lowestOne_carried_none hi hj (s := s) hs hw
  have h0 : x &&& BitVec.allOnes 64 <<< 64 = 0#64 := by
    apply BitVec.eq_of_getLsbD_eq
    intro t ht
    rw [getLsbD_clear_low, decide_eq_false (by omega), Bool.and_false, BitVec.getLsbD_zero]
  rwa [h0, ones_zero, List.append_nil] at h

/-- The run that goes on to the end of the word is pending behind it: it goes on with what was pending if it is the
whole word, and what was pending is handed over otherwise. -/
lemma WordDone.last (hs : ∀ s ∈ start, s < base) (hi : lowestOne x = some i) (hj : lowestOne (x + 1#64 <<< i) = none) :
    if i = 0 then WordDone base x start [] (some (start.getD base))
    else WordDone base x start (flush start base) (some (base + i)) := by
  obtain ⟨hiw, hix, -⟩ := lowestOne_eq_some.mp hi
  have hx : x ≠ 0#64 := by
    rintro rfl
    simp at hix
  have htop : x.getLsbD 63 = true := lowestOne_carried_none hi hj (by omega) (by omega)
  have hones := ones_carried_none hi hj
  split
  · rename_i h0
    refine ⟨?_, by simp, ?_, fun h => absurd h hx, fun _ => htop.symm⟩
    · have h := cover_getD start base (j := 64) (fun s h => (hs s h).le)
      rw [cover_cons, cover_nil, List.append_nil] at h
      rw [cover_nil, List.nil_append, pend_some, h, if_neg hx, hones, map_add_range, h0, Nat.add_zero]
    · intro s hmem
      obtain rfl := Option.mem_some_iff.mp hmem
      cases start with
      | none => exact Nat.lt_add_of_pos_right (by decide)
      | some t => exact (hs t rfl).trans_le (Nat.le_add_right _ _)
  · refine ⟨?_, flush_nonempty hs, by simpa using hiw, fun h => absurd h hx, fun _ => htop.symm⟩
    rw [← pend, pend_some, if_neg hx, hones, map_add_range, Nat.add_sub_add_left]

end Runs

lemma setRuns_spec {base n : ℕ} {x : BitVec 64} (start : Option ℕ) (hs : ∀ s ∈ start, s < base)
    (hf : (ones x).length < n) :
    ∃ calls start', (setRuns base n x start : Outcome ε _) = .ok (calls, start') ∧
      WordDone base x start calls start' := by
  induction n generalizing x start with
  | zero => omega
  | succ n ih =>
    cases hi : lowestOne x with
    | none =>
      have hx := eq_zero_of_lowestOne hi
      refine ⟨[], start, by simp only [setRuns, hi], ⟨?_, by simp, fun s h => ?_, fun _ => ⟨rfl, rfl⟩, fun h => absurd hx h⟩⟩
      · simp [hx]
      · have := hs s h
        omega
    | some i =>
      cases hj : lowestOne (x + 1#64 <<< i) with
      | some j =>
        obtain ⟨-, -, hlow⟩ := lowestOne_eq_some.mp hi
        obtain ⟨hij, -, hrun, -⟩ := lowestOne_carried_some hi hj
        -- the run has at least one bit, so the rest of the word has fewer
        rw [ones_run hlow hij.le hrun, List.length_append, List.length_range'] at hf
        obtain ⟨rest, start', hrest, hdone⟩ := ih (x := x &&& BitVec.allOnes 64 <<< j) none (by simp) (by omega)
        exact ⟨runCalls start base i j ++ rest, start', by simp only [setRuns, hi, hj, hrest, ok_bind],
          hdone.run hs hi hj⟩
      | none =>
        have hlast := WordDone.last hs hi hj
        by_cases h0 : i = 0
        · rw [if_pos h0] at hlast
          exact ⟨[], some (start.getD base), by simp only [setRuns, hi, hj, if_pos h0], hlast⟩
        · rw [if_neg h0] at hlast
          exact ⟨flush start base, some (base + i), by simp only [setRuns, hi, hj, if_neg h0], hlast⟩

/-! The bitmap as a set of positions. -/

def marked (setSegs : List (BitVec 64)) (p : ℕ) : Bool := (setSegs.getD (p / 64) 0).getLsbD (p % 64)

/-- The bits of `segBits` that are not set yet in word `k`. -/
def newBits (setSegs : List (BitVec 64)) (k : ℕ) (segBits : BitVec 64) : BitVec 64 :=
  ~~~(setSegs.getD k 0) &&& segBits

lemma getLsbD_newBits (setSegs : List (BitVec 64)) (k : ℕ) (segBits : BitVec 64) {t : ℕ} (ht : t < 64) :
    (newBits setSegs k segBits).getLsbD t = (!marked setSegs (k * 64 + t) && segBits.getLsbD t) := by
  have hd : (k * 64 + t) / 64 = k := by omega
  have hm : (k * 64 + t) % 64 = t := by omega
  rw [newBits, BitVec.getLsbD_and, BitVec.getLsbD_not, marked, hd, hm, decide_eq_true ht, Bool.true_and]

lemma marked_set {setSegs : List (BitVec 64)} {k : ℕ} (hk : k < setSegs.length) (y : BitVec 64) (p : ℕ) :
    marked (setSegs.set k (setSegs.getD k 0 ||| y)) p =
      (marked setSegs p || (decide (p / 64 = k) && y.getLsbD (p % 64))) := by
  unfold marked
  by_cases h : p / 64 = k
  · rw [h, List.getD_eq_getElem?_getD, List.getElem?_set_self hk]
    simp
  · rw [List.getD_eq_getElem?_getD, List.getElem?_set_ne (Ne.symm h)]
    simp [h]

lemma checkAndSetBits_spec {setSegs : List (BitVec 64)} {k : ℕ} (hk : k < setSegs.length) (segBits : BitVec 64)
    (start : Option ℕ) (hs : ∀ s ∈ start, s < k * 64) :
    ∃ calls start', (checkAndSetBits setSegs k segBits start : Outcome ε _) =
        .ok (setSegs.set k (setSegs.getD k 0 ||| segBits), calls, start') ∧
      WordDone (k * 64) (newBits setSegs k segBits) start calls start' := by
  have hlen := ones_length_le (newBits setSegs k segBits)
  obtain ⟨calls, start', hruns, hdone⟩ := setRuns_spec (ε := ε) (n := 65) (x := newBits setSegs k segBits) start hs
    (by omega)
  have hw : (wordAt setSegs k : Outcome ε _) = .ok (setSegs.getD k 0) := by
    simp [wordAt, hk]
  refine ⟨calls, start', ?_, hdone⟩
  rw [newBits] at hruns
  simp only [checkAndSetBits, hw, hruns, ok_bind]

/-! The words of a range and the bits of it in each. -/

/-- The part of the range from `a` to `last` that lies in word `k`. -/
def segBitsAt (a last k : ℕ) : BitVec 64 :=
  (BitVec.allOnes 64 <<< (if k = a / 64 then a % 64 else 0)) &&&
    (BitVec.allOnes 64 >>> (if k = last / 64 then 64 - last % 64 - 1 else 0))

def wordsOf (a last : ℕ) : List ℕ :=
  if a / 64 = last / 64 then [a / 64]
  else a / 64 :: (List.range' (a / 64 + 1) (last / 64 - 1 - (a / 64 + 1)) ++ [last / 64])

lemma visits_eq {a last : ℕ} (h : a / 64 ≤ last / 64) :
    (visits a last : Outcome ε _) = .ok ((wordsOf a last).map fun k => (k, segBitsAt a last k)) := by
  unfold visits wordsOf
  by_cases he : a / 64 = last / 64
  · rw [if_pos he, if_pos he]
    simp [segBitsAt, he]
  · have h1 : 1 ≤ last / 64 := by omega
    simp only [if_neg he, sub_ok h1, ok_bind, List.map_cons, List.map_append, List.map_nil]
    have hmid : (List.range' (a / 64 + 1) (last / 64 - 1 - (a / 64 + 1))).map (fun k => (k, segBitsAt a last k)) =
        (List.range' (a / 64 + 1) (last / 64 - 1 - (a / 64 + 1))).map (·, BitVec.allOnes 64) := by
      apply List.map_congr_left
      intro k hk
      rw [List.mem_range'_1] at hk
      have ha : k ≠ a / 64 := by omega
      have hl : k ≠ last / 64 := by omega
      simp [segBitsAt, ha, hl]
    have hfirst : segBitsAt a last (a / 64) = BitVec.allOnes 64 <<< (a % 64) := by
      rw [segBitsAt, if_pos rfl, if_neg he, BitVec.ushiftRight_zero, BitVec.and_allOnes]
    have hlast : segBitsAt a last (last / 64) = BitVec.allOnes 64 >>> (64 - last % 64 - 1) := by
      rw [segBitsAt, if_neg (Ne.symm he), if_pos rfl, BitVec.shiftLeft_zero, BitVec.allOnes_and]
    rw [hmid, hfirst, hlast]

lemma getLsbD_segBitsAt {a last k t : ℕ} (ht : t < 64) (ha : a / 64 ≤ k) (hl : k ≤ last / 64) :
    (segBitsAt a last k).getLsbD t = decide (a ≤ k * 64 + t ∧ k * 64 + t ≤ last) := by
  rw [segBitsAt, BitVec.getLsbD_and, BitVec.getLsbD_shiftLeft, BitVec.getLsbD_ushiftRight, BitVec.getLsbD_allOnes,
    BitVec.getLsbD_allOnes, Bool.eq_iff_iff]
  simp only [Bool.and_eq_true, Bool.not_eq_true', decide_eq_true_eq, decide_eq_false_iff_not]
  split_ifs <;> omega

section Words

variable {a b k : ℕ}

lemma le_of_mem_wordsOf {last : ℕ} (hl : a / 64 ≤ last / 64) (h : k ∈ wordsOf a last) :
    a / 64 ≤ k ∧ k ≤ last / 64 := by
  unfold wordsOf at h
  split at h
  · rw [List.mem_singleton] at h
    omega
  · simp only [List.mem_cons, List.mem_append, List.mem_range'_1, List.not_mem_nil, or_false] at h
    omega

lemma wordsOf_sorted {last : ℕ} (hl : a / 64 ≤ last / 64) : (wordsOf a last).Pairwise (· < ·) := by
  unfold wordsOf
  split
  · exact List.pairwise_singleton _ _
  · rename_i hne
    rw [List.pairwise_cons, List.pairwise_append]
    refine ⟨fun k hk => ?_, List.pairwise_lt_range', List.pairwise_singleton _ _, fun k hk l hl => ?_⟩
    · simp only [List.mem_append, List.mem_range'_1, List.mem_singleton] at hk
      omega
    · rw [List.mem_range'_1] at hk
      rw [List.mem_singleton] at hl
      omega

lemma map_ones_newBits (setSegs : List (BitVec 64)) (hb : a < b) (hk : a / 64 ≤ k) (hk' : k ≤ (b - 1) / 64) :
    (ones (newBits setSegs k (segBitsAt a (b - 1) k))).map (k * 64 + ·) =
      (List.range' (k * 64) 64).filter fun p => decide (a ≤ p ∧ p < b) && !marked setSegs p := by
  have hmem : ∀ t, t ∈ ones (newBits setSegs k (segBitsAt a (b - 1) k)) ↔
      t < 64 ∧ (a ≤ k * 64 + t ∧ k * 64 + t < b) ∧ marked setSegs (k * 64 + t) = false := by
    intro t
    rw [mem_ones]
    by_cases ht : t < 64
    · rw [getLsbD_newBits _ _ _ ht, getLsbD_segBitsAt ht hk hk']
      have hlt : k * 64 + t ≤ b - 1 ↔ k * 64 + t < b := by omega
      simp only [Bool.and_eq_true, Bool.not_eq_true', decide_eq_true_eq, hlt]
      tauto
    · rw [BitVec.getLsbD_of_ge _ _ (by omega)]
      simp [ht]
  apply List.Pairwise.eq_of_mem_iff (r := (· < ·))
  · rw [List.pairwise_map]
    exact (ones_sorted _).imp (fun h => by omega)
  · exact List.Pairwise.filter _ List.pairwise_lt_range'
  · intro p
    simp only [List.mem_map, hmem, List.mem_filter, List.mem_range'_1, Bool.and_eq_true, decide_eq_true_eq,
      Bool.not_eq_true']
    constructor
    · rintro ⟨t, ⟨ht, hr, hm⟩, rfl⟩
      exact ⟨by omega, hr, hm⟩
    · rintro ⟨hp, hr, hm⟩
      have he : k * 64 + (p - k * 64) = p := by omega
      exact ⟨p - k * 64, by rw [he]; exact ⟨by omega, hr, hm⟩, he⟩

end Words

/-! Every range that the closure is called on lies in the segment, whatever the bitmap. -/

/-- The calls made so far are on ranges in order from `a` on, up to what is still pending at `e`. -/
structure Swept (a b e : ℕ) (calls : List (ℕ × ℕ)) (start : Option ℕ) : Prop where
  sorted : (cover calls).Pairwise (· < ·)
  mem : ∀ p ∈ cover calls, a ≤ p ∧ p < b ∧ p < start.getD e
  start : ∀ s ∈ start, a ≤ s ∧ s < b ∧ s < e
  nonempty : ∀ r ∈ calls, r.1 < r.2

section Swept

variable {a b e base : ℕ} {calls calls' : List (ℕ × ℕ)} {start start' : Option ℕ} {x : BitVec 64}

lemma WordDone.eq_or (h : WordDone base x start calls' start') :
    (calls' = [] ∧ start' = start) ∨
      cover calls' ++ pend start' (base + 64) = pend start base ++ (ones x).map (base + ·) := by
  by_cases hx : x = 0#64
  · exact .inl (h.skip hx)
  · exact .inr (by simpa [hx] using h.covered)

lemma Swept.later {e' : ℕ} (h : Swept a b e calls start) (he : e ≤ e') : Swept a b e' calls start := by
  refine ⟨h.sorted, fun p hp => ?_, fun s hs => ?_, h.nonempty⟩
  · obtain ⟨h1, h2, h3⟩ := h.mem p hp
    refine ⟨h1, h2, ?_⟩
    cases start with
    | none => exact h3.trans_le he
    | some s => exact h3
  · obtain ⟨h1, h2, h3⟩ := h.start s hs
    exact ⟨h1, h2, h3.trans_le he⟩

lemma Swept.lt_pend (h : Swept a b e calls start) {p q stop : ℕ} (hp : p ∈ cover calls) (hq : q ∈ pend start stop) :
    p < q := by
  obtain ⟨s, rfl, hsq, -⟩ := mem_pend.mp hq
  exact (h.mem p hp).2.2.trans_le hsq

lemma Swept.lt (h : Swept a b e calls start) {p : ℕ} (hp : p ∈ cover calls) : p < e := by
  have hlt := (h.mem p hp).2.2
  cases start with
  | none => exact hlt
  | some s => exact hlt.trans (h.start s rfl).2.2

lemma Swept.word (h : Swept a b e calls start) (hw : WordDone base x start calls' start') (he : e ≤ base)
    (hb : base < b) (hx : ∀ t ∈ ones x, a ≤ base + t ∧ base + t < b) :
    Swept a b (base + 64) (calls ++ calls') start' := by
  rcases hw.eq_or with ⟨rfl, rfl⟩ | heq
  · rw [List.append_nil]
    exact h.later (by omega)
  · have hnew : ∀ p ∈ pend start base ++ (ones x).map (base + ·), a ≤ p ∧ p < b ∧ p < base + 64 := by
      intro p hp
      rcases List.mem_append.mp hp with hp | hp
      · obtain ⟨s, hs, hsp, hlt⟩ := mem_pend.mp hp
        have := h.start s hs
        omega
      · obtain ⟨t, ht, rfl, hbit⟩ := mem_map_ones.mp hp
        have := hx t (mem_ones.mpr hbit)
        omega
    have hafter : ∀ p ∈ cover calls, ∀ q ∈ pend start base ++ (ones x).map (base + ·), p < q := by
      intro p hp q hq
      rcases List.mem_append.mp hq with hq | hq
      · exact h.lt_pend hp hq
      · obtain ⟨t, -, rfl, -⟩ := mem_map_ones.mp hq
        have := h.lt hp
        omega
    have hall : cover (calls ++ calls') ++ pend start' (base + 64) =
        cover calls ++ (pend start base ++ (ones x).map (base + ·)) := by
      rw [cover_append, List.append_assoc, heq]
    have hsorted : (cover (calls ++ calls') ++ pend start' (base + 64)).Pairwise (· < ·) := by
      rw [hall, List.pairwise_append]
      exact ⟨h.sorted, pend_ones_sorted start base x, hafter⟩
    have hmem : ∀ p ∈ cover (calls ++ calls') ++ pend start' (base + 64), a ≤ p ∧ p < b ∧ p < base + 64 := by
      intro p hp
      rw [hall] at hp
      rcases List.mem_append.mp hp with hp | hp
      · obtain ⟨h1, h2, -⟩ := h.mem p hp
        have := h.lt hp
        exact ⟨h1, h2, by omega⟩
      · exact hnew p hp
    have hstart : ∀ s ∈ start', s ∈ pend start' (base + 64) := fun s hs =>
      mem_pend.mpr ⟨s, hs, le_rfl, hw.start_lt s hs⟩
    rw [List.pairwise_append] at hsorted
    refine ⟨hsorted.1, fun p hp => ?_, fun s hs => hmem s (List.mem_append_right _ (hstart s hs)), ?_⟩
    · obtain ⟨h1, h2, h3⟩ := hmem p (List.mem_append_left _ hp)
      refine ⟨h1, h2, ?_⟩
      cases start' with
      | none => exact h3
      | some s => exact hsorted.2.2 p hp s (hstart s rfl)
    · rw [List.forall_mem_append]
      exact ⟨h.nonempty, hw.nonempty⟩

lemma Swept.finish (h : Swept a b e calls start) :
    (cover (calls ++ flush start b)).Pairwise (· < ·) ∧
      ∀ r ∈ calls ++ flush start b, a ≤ r.1 ∧ r.1 < r.2 ∧ r.2 ≤ b := by
  refine ⟨?_, fun r hr => ?_⟩
  · rw [cover_append, List.pairwise_append]
    exact ⟨h.sorted, pend_sorted start b, fun p hp q hq => h.lt_pend hp hq⟩
  · rcases List.mem_append.mp hr with hr | hr
    · have hlt := h.nonempty r hr
      have h1 := h.mem r.1 (mem_cover.mpr ⟨r, hr, le_rfl, hlt⟩)
      have h2 := h.mem (r.2 - 1) (mem_cover.mpr ⟨r, hr, by omega, by omega⟩)
      exact ⟨h1.1, hlt, by omega⟩
    · cases start with
      | none => simp [flush] at hr
      | some s =>
        obtain ⟨h1, h2, -⟩ := h.start s rfl
        rw [List.mem_singleton.mp hr]
        exact ⟨h1, h2, le_rfl⟩

end Swept

/-- The bitmap behind a scan of the words `ks`. -/
structure Marks (setSegs setSegs' : List (BitVec 64)) (a b : ℕ) (ks : List ℕ) : Prop where
  length_eq : setSegs'.length = setSegs.length
  marked_eq : ∀ p, marked setSegs' p = (marked setSegs p || decide ((a ≤ p ∧ p < b) ∧ p / 64 ∈ ks))

section Scan

variable {a b e k : ℕ} {setSegs : List (BitVec 64)} {ks : List ℕ} {calls : List (ℕ × ℕ)} {start : Option ℕ}

lemma Marks.word (hb : a < b) (hk : k < setSegs.length) (ha : a / 64 ≤ k) (hl : k ≤ (b - 1) / 64) :
    Marks setSegs (setSegs.set k (setSegs.getD k 0 ||| segBitsAt a (b - 1) k)) a b [k] := by
  refine ⟨List.length_set .., fun p => ?_⟩
  rw [marked_set hk]
  by_cases hp : p / 64 = k
  · have hkp : k * 64 + p % 64 = p := by omega
    rw [getLsbD_segBitsAt (Nat.mod_lt p (by omega)) ha hl, hkp, decide_eq_true hp, Bool.true_and]
    congr 1
    rw [decide_eq_decide, List.mem_singleton]
    omega
  · simp [hp]

lemma Marks.trans {segs segs' segs'' : List (BitVec 64)} {ks ls : List ℕ} (h : Marks segs segs' a b ks)
    (h' : Marks segs' segs'' a b ls) : Marks segs segs'' a b (ks ++ ls) := by
  refine ⟨h'.length_eq.trans h.length_eq, fun p => ?_⟩
  rw [h'.marked_eq, h.marked_eq, Bool.or_assoc]
  congr 1
  rw [← Bool.decide_or, decide_eq_decide, List.mem_append]
  tauto

lemma newBits_eq_zero (hb : a < b) (ha : a / 64 ≤ k) (hl : k ≤ (b - 1) / 64) :
    newBits setSegs k (segBitsAt a (b - 1) k) = 0#64 ↔
      ∀ p, a ≤ p → p < b → p / 64 = k → marked setSegs p = true := by
  constructor
  · intro h p hap hpb hpk
    have h0 := congrArg (BitVec.getLsbD · (p % 64)) h
    have hkp : k * 64 + p % 64 = p := by omega
    rw [getLsbD_newBits _ _ _ (Nat.mod_lt p (by omega)), getLsbD_segBitsAt (Nat.mod_lt p (by omega)) ha hl, hkp,
      decide_eq_true ⟨hap, by omega⟩] at h0
    simpa using h0
  · intro h
    apply BitVec.eq_of_getLsbD_eq
    intro t ht
    rw [getLsbD_newBits _ _ _ ht, getLsbD_segBitsAt ht ha hl, BitVec.getLsbD_zero]
    by_cases hr : a ≤ k * 64 + t ∧ k * 64 + t ≤ b - 1
    · rw [h (k * 64 + t) hr.1 (by omega) (by omega)]
      rfl
    · rw [decide_eq_false hr, Bool.and_false]

lemma checkEach_spec (hb : a < b) (hks : ks.Pairwise (· < ·))
    (hk : ∀ k ∈ ks, (a / 64 ≤ k ∧ k ≤ (b - 1) / 64) ∧ k < setSegs.length ∧ e ≤ k * 64)
    (h : Swept a b e calls start) :
    ∃ setSegs' calls' start' e',
      (checkEach setSegs start (ks.map fun k => (k, segBitsAt a (b - 1) k)) : Outcome ε _) =
        .ok (setSegs', calls', start') ∧
      Swept a b e' (calls ++ calls') start' ∧ Marks setSegs setSegs' a b ks ∧
      ((∀ p, a ≤ p → p < b → p / 64 ∈ ks → marked setSegs p = true) → calls' = [] ∧ start' = start) := by
  induction ks generalizing setSegs start calls e with
  | nil => exact ⟨setSegs, [], start, e, rfl, by simpa using h, ⟨rfl, by simp⟩, fun _ => ⟨rfl, rfl⟩⟩
  | cons k ks ih =>
    obtain ⟨⟨ha, hl⟩, hlen, he⟩ := hk k (by simp)
    have hs : ∀ s ∈ start, s < k * 64 := fun s hs => by
      have := h.start s hs
      omega
    obtain ⟨calls₁, start₁, hcheck, hw⟩ := checkAndSetBits_spec (ε := ε) hlen (segBitsAt a (b - 1) k) start hs
    have hx : ∀ t ∈ ones (newBits setSegs k (segBitsAt a (b - 1) k)), a ≤ k * 64 + t ∧ k * 64 + t < b := by
      intro t ht
      have hm : k * 64 + t ∈ (ones (newBits setSegs k (segBitsAt a (b - 1) k))).map (k * 64 + ·) :=
        List.mem_map.mpr ⟨t, ht, rfl⟩
      rw [map_ones_newBits setSegs hb ha hl, List.mem_filter] at hm
      simp only [Bool.and_eq_true, decide_eq_true_eq] at hm
      exact hm.2.1
    have hm := Marks.word hb hlen ha hl
    have hlt := (List.pairwise_cons.mp hks).1
    have hks' : ∀ l ∈ ks, (a / 64 ≤ l ∧ l ≤ (b - 1) / 64) ∧
        l < (setSegs.set k (setSegs.getD k 0 ||| segBitsAt a (b - 1) k)).length ∧ k * 64 + 64 ≤ l * 64 := by
      intro l hl
      have h1 := hlt l hl
      obtain ⟨h2, h3, -⟩ := hk l (List.mem_cons_of_mem _ hl)
      exact ⟨h2, by rwa [hm.length_eq], by omega⟩
    obtain ⟨setSegs₂, calls₂, start₂, e₂, hrest, hsw, hms, hnone⟩ := ih (List.pairwise_cons.mp hks).2 hks'
      (h.word hw he (by omega) hx)
    refine ⟨setSegs₂, calls₁ ++ calls₂, start₂, e₂, ?_, by rwa [← List.append_assoc], hm.trans hms, fun hall => ?_⟩
    · simp only [List.map_cons, checkEach, hcheck, hrest, ok_bind]
    · have h0 := (newBits_eq_zero hb ha hl).mpr (fun p h1 h2 h3 => hall p h1 h2 (by simp [h3]))
      obtain ⟨rfl, rfl⟩ := hw.skip h0
      refine hnone fun p h1 h2 h3 => ?_
      rw [hm.marked_eq, hall p h1 h2 (List.mem_cons_of_mem _ h3), Bool.true_or]

/-- For a range that is not empty, every call is on a part of it, and all calls together cover no
position twice. A call is only made when some position of the range was unmarked. -/
lemma runOverUnsetRanges_spec (hb : a < b) (hlen : b ≤ setSegs.length * 64) :
    ∃ setSegs' calls, (runOverUnsetRanges setSegs a b : Outcome ε _) = .ok (setSegs', calls) ∧
      (∀ r ∈ calls, a ≤ r.1 ∧ r.1 < r.2 ∧ r.2 ≤ b) ∧ (cover calls).Pairwise (· < ·) ∧
      (∀ p ∈ cover calls, a ≤ p ∧ p < b) ∧ Marks setSegs setSegs' a b (wordsOf a (b - 1)) ∧
      (calls ≠ [] → ∃ p, a ≤ p ∧ p < b ∧ p / 64 ∈ wordsOf a (b - 1) ∧ marked setSegs p = false) := by
  have hw : a / 64 ≤ (b - 1) / 64 := Nat.div_le_div_right (by omega)
  have hstart : Swept a b (a / 64 * 64) [] none :=
    ⟨List.Pairwise.nil, by simp, by simp, by simp⟩
  have hwords : ∀ k ∈ wordsOf a (b - 1), (a / 64 ≤ k ∧ k ≤ (b - 1) / 64) ∧ k < setSegs.length ∧ a / 64 * 64 ≤ k * 64 := by
    intro k hk
    have hrange := le_of_mem_wordsOf hw hk
    exact ⟨hrange, by omega, by omega⟩
  obtain ⟨setSegs', calls, start, e, hcheck, hsw, hm, hnone⟩ := checkEach_spec (ε := ε) hb (wordsOf_sorted hw) hwords
    hstart
  rw [List.nil_append] at hsw
  obtain ⟨hsorted, hr⟩ := hsw.finish
  refine ⟨setSegs', calls ++ flush start b, ?_, hr, hsorted, fun p hp => ?_, hm, fun hne => ?_⟩
  · simp only [runOverUnsetRanges, sub_ok (show 1 ≤ b by omega), visits_eq hw, hcheck, ok_bind]
  · obtain ⟨r, hr', h1, h2⟩ := mem_cover.mp hp
    have := hr r hr'
    omega
  · by_contra hall
    push Not at hall
    obtain ⟨rfl, rfl⟩ := hnone fun p h1 h2 h3 => by simpa using hall p h1 h2 h3
    exact hne rfl

end Scan

end Pqsnet.Session.Desegmenter
