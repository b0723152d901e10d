import Pqsnet.Session.Bitmap

/-! When `run_over_unset_ranges` hands over exactly the unmarked bytes of a range. -/

namespace Pqsnet.Session.Desegmenter

open Checked Outcome

variable {ε : Type}

/-- The word before the last one of a range over three words or more. The loop ends before it. -/
def Skipped (a b k : ℕ) : Prop := a / 64 < k ∧ k + 1 = (b - 1) / 64

instance (a b k : ℕ) : Decidable (Skipped a b k) := inferInstanceAs (Decidable (_ ∧ _))

/-- Whether a scan takes byte `p` for a new one. A skipped word follows the byte before it. -/
def unset (B : ℕ → Bool) (a b p : ℕ) : Bool := if Skipped a b (p / 64) then !B (p / 64 * 64 - 1) else !B p

/-- The word that is looked at right after word `k`. -/
def wordAfter (a b k : ℕ) : ℕ := if Skipped a b (k + 1) then k + 2 else k + 1

/-- A range that is pending at the end of a word is closed in the next one: some byte is new there. -/
def Chained (B : ℕ → Bool) (a b : ℕ) : Prop :=
  ∀ k, a / 64 ≤ k → k < (b - 1) / 64 → ¬ Skipped a b k → B (k * 64 + 63) = false →
    ∃ p, a ≤ p ∧ p < b ∧ p / 64 = wordAfter a b k ∧ B p = false

/-- The bytes found new up to the end of word `k`. -/
structure Scanned (B : ℕ → Bool) (a b k : ℕ) (calls : List (ℕ × ℕ)) (start : Option ℕ) : Prop where
  covered : cover calls ++ pend start ((k + 1) * 64) =
    (List.range' a ((k + 1) * 64 - a)).filter fun p => decide (p < b) && unset B a b p
  pending : start.isSome = (decide (k * 64 + 63 < b) && !B (k * 64 + 63))
  start_lt : ∀ s ∈ start, s < (k + 1) * 64

variable {B : ℕ → Bool} {a b k l : ℕ} {setSegs : List (BitVec 64)} {calls calls' : List (ℕ × ℕ)}
  {start start' : Option ℕ}

lemma map_ones_unset (hb : a < b) (ha : a / 64 ≤ k) (hl : k ≤ (b - 1) / 64) (hk : ¬ Skipped a b k)
    (hB : ∀ p, p / 64 = k → marked setSegs p = B p) :
    (ones (newBits setSegs k (segBitsAt a (b - 1) k))).map (k * 64 + ·) =
      (List.range' (k * 64) 64).filter fun p => decide (a ≤ p) && (decide (p < b) && unset B a b p) := by
  rw [map_ones_newBits setSegs hb ha hl]
  apply List.filter_congr
  intro p hp
  rw [List.mem_range'_1] at hp
  have hpk : p / 64 = k := by omega
  rw [unset, hpk, if_neg hk, hB p hpk, Bool.decide_and, Bool.and_assoc]

lemma getLsbD_newBits_last (ha : a / 64 ≤ k) (hl : k ≤ (b - 1) / 64) (hB : marked setSegs (k * 64 + 63) = B (k * 64 + 63)) :
    (newBits setSegs k (segBitsAt a (b - 1) k)).getLsbD 63 =
      (decide (k * 64 + 63 < b) && !B (k * 64 + 63)) := by
  rw [getLsbD_newBits _ _ _ (by omega), getLsbD_segBitsAt (by omega) ha hl, hB, Bool.and_comm]
  congr 1
  rw [decide_eq_decide]
  omega

lemma Scanned.first (hb : a < b) (hB : ∀ p, p / 64 = a / 64 → marked setSegs p = B p)
    (hw : WordDone (a / 64 * 64) (newBits setSegs (a / 64) (segBitsAt a (b - 1) (a / 64))) none calls start) :
    Scanned B a b (a / 64) calls start := by
  have hl : a / 64 ≤ (b - 1) / 64 := Nat.div_le_div_right (by omega)
  have hk : ¬ Skipped a b (a / 64) := fun h => absurd h.1 (lt_irrefl _)
  refine ⟨?_, ?_, fun s hs => by have := hw.start_lt s hs; omega⟩
  · have hcov := hw.covered
    rw [pend_none, List.nil_append, map_ones_unset hb le_rfl hl hk hB] at hcov
    rw [add_mul, one_mul, hcov]
    apply filter_range'_congr
    intro p
    rw [Bool.and_eq_true, decide_eq_true_eq]
    constructor
    · rintro ⟨h1, h2, h3⟩
      exact ⟨by omega, h3⟩
    · rintro ⟨h1, h3⟩
      exact ⟨by omega, by omega, h3⟩
  · by_cases h0 : newBits setSegs (a / 64) (segBitsAt a (b - 1) (a / 64)) = 0#64
    · rw [← getLsbD_newBits_last le_rfl hl (hB _ (by omega)), h0, (hw.skip h0).2]
      simp
    · rw [hw.goes_on h0, getLsbD_newBits_last le_rfl hl (hB _ (by omega))]

lemma wordAfter_spec (hlt : k < (b - 1) / 64) :
    k + 1 ≤ wordAfter a b k ∧ wordAfter a b k ≤ k + 2 ∧ wordAfter a b k ≤ (b - 1) / 64 ∧
      ¬ Skipped a b (wordAfter a b k) ∧ ∀ m, k < m → m < wordAfter a b k → Skipped a b m := by
  unfold wordAfter
  split
  · rename_i hs
    have hs2 := hs.2
    refine ⟨by omega, le_rfl, by omega, fun h => ?_, fun m h1 h2 => ?_⟩
    · have := h.2
      omega
    · rwa [show m = k + 1 by omega]
  · rename_i hs
    exact ⟨le_rfl, by omega, by omega, hs, fun m h1 h2 => by omega⟩

lemma Scanned.word (hb : a < b) (h : Scanned B a b k calls start) (ha : a / 64 ≤ k) (hk : ¬ Skipped a b k)
    (hlt : k < (b - 1) / 64) (hc : Chained B a b) (hl : l = wordAfter a b k)
    (hB : ∀ p, p / 64 = l → marked setSegs p = B p)
    (hw : WordDone (l * 64) (newBits setSegs l (segBitsAt a (b - 1) l)) start calls' start') :
    Scanned B a b l (calls ++ calls') start' := by
  obtain ⟨hle, hle2, hlb, hls, hgap⟩ := wordAfter_spec (a := a) (b := b) hlt
  rw [← hl] at hle hle2 hlb hls hgap
  have hk63 : k * 64 + 63 < b := by omega
  have hpend : start.isSome = !B (k * 64 + 63) := by
    rw [h.pending, decide_eq_true hk63, Bool.true_and]
  have hnew : start.isSome = true → newBits setSegs l (segBitsAt a (b - 1) l) ≠ 0#64 := by
    intro hs h0
    rw [hpend, Bool.not_eq_true'] at hs
    obtain ⟨p, h1, h2, h3, h4⟩ := hc k ha hlt hk hs
    rw [← hl] at h3
    have := (newBits_eq_zero hb (by omega) hlb).mp h0 p h1 h2 h3
    rw [hB p h3, h4] at this
    cases this
  have hcov : cover calls' ++ pend start' (l * 64 + 64) = pend start (l * 64) ++
      (ones (newBits setSegs l (segBitsAt a (b - 1) l))).map (l * 64 + ·) := by
    rw [hw.covered]
    cases start with
    | none => simp
    | some s => rw [if_neg (hnew rfl)]
  have hlast := getLsbD_newBits_last (show a / 64 ≤ l by omega) hlb (hB (l * 64 + 63) (by omega))
  have hmid : (List.range' ((k + 1) * 64) (l * 64 - (k + 1) * 64)).filter (fun p => decide (p < b) && unset B a b p) =
      if start.isSome then List.range' ((k + 1) * 64) (l * 64 - (k + 1) * 64) else [] := by
    have hP : ∀ p ∈ List.range' ((k + 1) * 64) (l * 64 - (k + 1) * 64),
        (decide (p < b) && unset B a b p) = start.isSome := by
      intro p hp
      rw [List.mem_range'_1] at hp
      have hs := hgap (p / 64) (by omega) (by omega)
      rw [decide_eq_true (by omega), Bool.true_and, unset, if_pos hs, hpend,
        show p / 64 * 64 - 1 = k * 64 + 63 by omega]
    rw [List.filter_congr hP]
    cases start.isSome <;> simp
  have hend : (List.range' (l * 64) 64).filter (fun p => decide (a ≤ p) && (decide (p < b) && unset B a b p)) =
      (List.range' (l * 64) 64).filter (fun p => decide (p < b) && unset B a b p) := by
    apply List.filter_congr
    intro p hp
    rw [List.mem_range'_1] at hp
    rw [decide_eq_true (by omega), Bool.true_and]
  have hjoin : List.range' a (l * 64 + 64 - a) = List.range' a ((k + 1) * 64 - a) ++
      (List.range' ((k + 1) * 64) (l * 64 - (k + 1) * 64) ++ List.range' (l * 64) 64) := by
    have h1 := range'_join (show a ≤ (k + 1) * 64 by omega) (show (k + 1) * 64 ≤ l * 64 + 64 by omega)
    have h2 := range'_join (show (k + 1) * 64 ≤ l * 64 by omega) (Nat.le_add_right (l * 64) 64)
    rw [Nat.add_sub_cancel_left] at h2
    rw [h2, h1]
  refine ⟨?_, ?_, fun s hs => by have := hw.start_lt s hs; omega⟩
  · rw [cover_append, List.append_assoc, add_mul, one_mul, hcov,
      ← pend_extend (c := l * 64) (b := (k + 1) * 64) (fun s hs => (h.start_lt s hs).le) (by omega),
      List.append_assoc, ← List.append_assoc, h.covered, map_ones_unset hb (by omega) hlb hls hB, hjoin,
      List.filter_append, List.filter_append, hmid, hend]
  · by_cases h0 : newBits setSegs l (segBitsAt a (b - 1) l) = 0#64
    · have hn : start.isSome = false := Bool.eq_false_iff.mpr fun hs => hnew hs h0
      rw [← hlast, h0, (hw.skip h0).2, hn]
      simp
    · rw [hw.goes_on h0, hlast]

/-- The words `ks` are those that are looked at behind word `k`, up to the last one. -/
def Follow (a b : ℕ) : ℕ → List ℕ → Prop
  | k, [] => k = (b - 1) / 64
  | k, l :: ks => k < (b - 1) / 64 ∧ ¬ Skipped a b k ∧ l = wordAfter a b k ∧ Follow a b l ks

lemma follow_middle {n : ℕ} (ha : a / 64 ≤ k) (hn : k + n + 2 = (b - 1) / 64) :
    Follow a b k (List.range' (k + 1) n ++ [(b - 1) / 64]) := by
  induction n generalizing k with
  | zero =>
    have hs : Skipped a b (k + 1) := ⟨by omega, by omega⟩
    refine ⟨by omega, fun h => ?_, ?_, rfl⟩
    · have := h.2
      omega
    · rw [wordAfter, if_pos hs]
      omega
  | succ n ih =>
    have hs : ¬ Skipped a b (k + 1) := fun h => by
      have := h.2
      omega
    rw [List.range'_succ]
    refine ⟨by omega, fun h => ?_, ?_, ih (by omega) (by omega)⟩
    · have := h.2
      omega
    · rw [wordAfter, if_neg hs]

lemma exists_follow (hl : a / 64 ≤ (b - 1) / 64) :
    ∃ ks, wordsOf a (b - 1) = a / 64 :: ks ∧ Follow a b (a / 64) ks := by
  unfold wordsOf
  split
  · rename_i he
    exact ⟨[], rfl, he⟩
  · rename_i hne
    refine ⟨_, rfl, ?_⟩
    by_cases h1 : a / 64 + 1 = (b - 1) / 64
    · have hn : (b - 1) / 64 - 1 - (a / 64 + 1) = 0 := by omega
      have hs : ¬ Skipped a b (a / 64 + 1) := fun h => by
        have := h.2
        omega
      rw [hn]
      refine ⟨by omega, fun h => absurd h.1 (lt_irrefl _), ?_, rfl⟩
      rw [wordAfter, if_neg hs, h1]
    · exact follow_middle le_rfl (by omega)

lemma checkEach_scanned {ks : List ℕ} (hb : a < b) (hlen : b ≤ setSegs.length * 64) (hc : Chained B a b)
    (hf : Follow a b k ks) (ha : a / 64 ≤ k) (hB : ∀ p, k < p / 64 → marked setSegs p = B p)
    (h : Scanned B a b k calls start) :
    ∃ setSegs' calls' start',
      (checkEach setSegs start (ks.map fun k => (k, segBitsAt a (b - 1) k)) : Outcome ε _) =
        .ok (setSegs', calls', start') ∧ Scanned B a b ((b - 1) / 64) (calls ++ calls') start' := by
  induction ks generalizing setSegs k calls start with
  | nil =>
    obtain rfl := hf
    exact ⟨setSegs, [], start, rfl, by simpa using h⟩
  | cons l ks ih =>
    obtain ⟨hlt, hk, hl, hrest⟩ := hf
    obtain ⟨hle, -, hlb, -, -⟩ := wordAfter_spec (a := a) hlt
    rw [← hl] at hle hlb
    have hll : l < setSegs.length := by omega
    obtain ⟨calls₁, start₁, hcheck, hw⟩ := checkAndSetBits_spec (ε := ε) hll (segBitsAt a (b - 1) l)
      start (fun s hs => by have := h.start_lt s hs; omega)
    have hm := Marks.word hb hll (show a / 64 ≤ l by omega) hlb
    have hB' : ∀ p, l < p / 64 → marked (setSegs.set l (setSegs.getD l 0 ||| segBitsAt a (b - 1) l)) p = B p := by
      intro p hp
      have hne : ¬ ((a ≤ p ∧ p < b) ∧ p / 64 ∈ [l]) := by
        rw [List.mem_singleton]
        omega
      rw [hm.marked_eq, decide_eq_false hne, Bool.or_false, hB p (by omega)]
    obtain ⟨segs₂, calls₂, start₂, hrun, hsc⟩ := ih (by rw [hm.length_eq]; exact hlen) hrest (by omega) hB'
      (h.word hb ha hk hlt hc hl (fun p hp => hB p (by omega)) hw)
    refine ⟨segs₂, calls₁ ++ calls₂, start₂, ?_, by rwa [← List.append_assoc]⟩
    simp only [List.map_cons, checkEach, hcheck, hrun, ok_bind]

lemma runOverUnsetRanges_cover (hb : a < b) (hlen : b ≤ setSegs.length * 64) (hc : Chained (marked setSegs) a b)
    {setSegs' : List (BitVec 64)} (h : (runOverUnsetRanges setSegs a b : Outcome ε _) = .ok (setSegs', calls)) :
    cover calls = (List.range' a (b - a)).filter (unset (marked setSegs) a b) := by
  have hl : a / 64 ≤ (b - 1) / 64 := Nat.div_le_div_right (by omega)
  obtain ⟨ks, hks, hf⟩ := exists_follow hl
  have hlen' : a / 64 < setSegs.length := by omega
  obtain ⟨calls₁, start₁, hcheck, hw⟩ := checkAndSetBits_spec (ε := ε) hlen' (segBitsAt a (b - 1) (a / 64))
    none (by simp)
  have hm := Marks.word hb hlen' le_rfl hl
  obtain ⟨segs₂, calls₂, start₂, hrun, hsc⟩ := checkEach_scanned (ε := ε) (B := marked setSegs) hb
    (by rw [hm.length_eq]; exact hlen) hc hf le_rfl (fun p hp => by
      have hne : ¬ ((a ≤ p ∧ p < b) ∧ p / 64 ∈ [a / 64]) := by
        rw [List.mem_singleton]
        omega
      rw [hm.marked_eq, decide_eq_false hne, Bool.or_false])
    (Scanned.first hb (fun _ _ => rfl) hw)
  simp only [runOverUnsetRanges, sub_ok (show 1 ≤ b by omega), visits_eq hl, hks, List.map_cons, checkEach, hcheck,
    hrun, ok_bind, ok_inj, Prod.mk.injEq] at h
  rw [← h.2, cover_append, ← pend]
  have hpend : pend start₂ b = pend start₂ (((b - 1) / 64 + 1) * 64) := by
    cases hs : start₂ with
    | none => rfl
    | some s =>
      have hp := hsc.pending
      rw [hs] at hp
      have hlt : (b - 1) / 64 * 64 + 63 < b := by
        by_contra hge
        rw [decide_eq_false hge] at hp
        simp at hp
      rw [show ((b - 1) / 64 + 1) * 64 = b by omega]
  rw [hpend, hsc.covered]
  apply filter_range'_congr
  intro p
  rw [Bool.and_eq_true, decide_eq_true_eq]
  constructor
  · rintro ⟨h1, h2, h3⟩
    exact ⟨by omega, h3⟩
  · rintro ⟨h1, h3⟩
    exact ⟨by omega, by omega, h3⟩

end Pqsnet.Session.Desegmenter
