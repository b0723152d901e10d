import Pqsnet.Session.CleanScan

/-! When the ranges that are handed over are exactly those of the bytes that were missing, for one word and for
a whole scan. -/

namespace Pqsnet.Session.Desegmenter

open Checked Outcome

variable {ε : Type} {setSegs : List (BitVec 64)} {a b k l base : ℕ} {calls calls' : List (ℕ × ℕ)} {start start' : Option ℕ}
  {x segBits : BitVec 64}

section Word

end Word

section Overrun

variable {B : ℕ → Bool} {ks : List ℕ} {segs' : List (BitVec 64)} {p q : ℕ}

lemma pend_mono {c : ℕ} (hbc : b ≤ c) (hp : p ∈ pend start b) : p ∈ pend start c := by
  rw [mem_pend] at hp ⊢
  obtain ⟨s, hs, hsp, hpb⟩ := hp
  exact ⟨s, hs, hsp, hpb.trans_le hbc⟩

lemma WordDone.keeps (h : WordDone base x start calls start') (hp : p ∈ pend start base ∨ x = 0#64 ∧ p ∈ pend start (base + 64)) :
    p ∈ cover calls ∨ p ∈ pend start' (base + 64) := by
  rw [← List.mem_append, h.covered, List.mem_append]
  left
  split
  · obtain hp | ⟨-, hp⟩ := hp
    · exact pend_mono (Nat.le_add_right _ _) hp
    · exact hp
  · rename_i hx
    exact hp.resolve_right fun h => hx h.1

lemma WordDone.lt_next (h : WordDone (k * 64) x start calls start') : ∀ s ∈ start', s < (k + 1) * 64 := fun s hs => by
  have := h.start_lt s hs
  omega

lemma checkEach_cons {vs : List (ℕ × BitVec 64)} (hl : l < setSegs.length) (hs : ∀ s ∈ start, s < l * 64)
    (h : (checkEach setSegs start ((l, segBits) :: vs) : Outcome ε _) = .ok (segs', calls, start')) :
    ∃ calls₁ start₁ calls₂, WordDone (l * 64) (newBits setSegs l segBits) start calls₁ start₁ ∧
      (checkEach (setSegs.set l (setSegs.getD l 0 ||| segBits)) start₁ vs : Outcome ε _) = .ok (segs', calls₂, start') ∧
      calls = calls₁ ++ calls₂ := by
  obtain ⟨calls₁, start₁, hcheck, hdone⟩ := checkAndSetBits_spec (ε := ε) hl segBits start hs
  rw [checkEach, hcheck, ok_bind] at h
  obtain ⟨⟨segs, calls₂, start₂⟩, hrest, h⟩ := bind_eq_ok.mp h
  obtain ⟨rfl, hcalls⟩ := Prod.mk.inj (ok_inj.mp h)
  obtain ⟨rfl, rfl⟩ := Prod.mk.inj hcalls
  exact ⟨calls₁, start₁, calls₂, hdone, hrest, rfl⟩

lemma checkEach_keeps (hb : a < b) (hf : Follow a b k ks) (hlen : b ≤ setSegs.length * 64) (hs : ∀ s ∈ start, s < (k + 1) * 64)
    (h : (checkEach setSegs start (ks.map fun k => (k, segBitsAt a (b - 1) k)) : Outcome ε _) = .ok (segs', calls, start'))
    (hp : p ∈ pend start ((k + 1) * 64)) : p ∈ cover calls ∨ p ∈ pend start' (((b - 1) / 64 + 1) * 64) := by
  induction ks generalizing setSegs k start calls with
  | nil =>
    obtain rfl := hf
    cases h
    exact .inr hp
  | cons l ks ih =>
    obtain ⟨hlt, hk, hl, hrest⟩ := hf
    obtain ⟨hle, -, hlb, -, -⟩ := wordAfter_spec (a := a) hlt
    rw [← hl] at hle hlb
    obtain ⟨calls₁, start₁, calls₂, hdone, hnext, rfl⟩ := checkEach_cons (by omega) (fun s hs' => by have := hs s hs'; omega) h
    rw [cover_append, List.mem_append]
    obtain hp | hp := hdone.keeps (.inl (pend_mono (by omega) hp))
    · exact .inl (.inl hp)
    · rw [or_assoc]
      exact .inr (ih hrest (hlen.trans (by rw [List.length_set])) (hdone.lt_next) hnext (by rwa [add_mul, one_mul]))

lemma marked_set_of_ne {y : BitVec 64} (hp : p / 64 ≠ l) : marked (setSegs.set l y) p = marked setSegs p := by
  rw [marked, marked, List.getD_eq_getElem?_getD, List.getD_eq_getElem?_getD, List.getElem?_set_ne (Ne.symm hp)]

lemma WordDone.pending (h : WordDone (l * 64) (newBits setSegs l (segBitsAt a (b - 1) l)) start calls start') (hb : a < b)
    (ha : a / 64 ≤ l) (hlt : l < (b - 1) / 64) (hlast : marked setSegs (l * 64 + 63) = false) : start'.isSome := by
  have hne : newBits setSegs l (segBitsAt a (b - 1) l) ≠ 0#64 := fun h0 => by
    have := (newBits_eq_zero hb ha hlt.le).mp h0 (l * 64 + 63) (by omega) (by omega) (by omega)
    rw [hlast] at this
    cases this
  rw [h.goes_on hne, getLsbD_newBits_last ha hlt.le rfl, hlast, decide_eq_true (by omega)]
  rfl

/-- Bytes behind word `k` that a range pending there runs over: those of a skipped word, and those of the next word if
none of them is new. -/
def Overrun (B : ℕ → Bool) (a b k q : ℕ) : Prop :=
  (k + 1) * 64 ≤ q ∧ (q < wordAfter a b k * 64 ∨
    (∀ p, a ≤ p → p < b → p / 64 = wordAfter a b k → B p = true) ∧ q < (wordAfter a b k + 1) * 64)

/-- If the last byte of word `k` is new, a range is pending behind it, and all that it runs over is handed over, too. -/
lemma checkEach_overrun {k₀ : ℕ} (hb : a < b) (hf : Follow a b k₀ ks) (ha : a / 64 ≤ k₀) (hlen : b ≤ setSegs.length * 64)
    (hs : ∀ s ∈ start, s < (k₀ + 1) * 64) (hB : ∀ p, k₀ < p / 64 → marked setSegs p = B p)
    (hstart : k₀ < (b - 1) / 64 → B (k₀ * 64 + 63) = false → start.isSome)
    (h : (checkEach setSegs start (ks.map fun k => (k, segBitsAt a (b - 1) k)) : Outcome ε _) = .ok (segs', calls, start'))
    (hk : k₀ ≤ k) (hlt : k < (b - 1) / 64) (hskip : ¬ Skipped a b k) (hnew : B (k * 64 + 63) = false) (hq : Overrun B a b k q) :
    q ∈ cover calls ∨ q ∈ pend start' (((b - 1) / 64 + 1) * 64) := by
  induction ks generalizing setSegs k₀ start calls with
  | nil =>
    obtain rfl := hf
    omega
  | cons l ks ih =>
    obtain ⟨hlt₀, hk₀, hl, hrest⟩ := hf
    obtain ⟨hle, -, hlb, -, hgap⟩ := wordAfter_spec (a := a) hlt₀
    rw [← hl] at hle hlb hgap
    have hzero : newBits setSegs l (segBitsAt a (b - 1) l) = 0#64 ↔ _ := newBits_eq_zero hb (by omega) hlb
    obtain ⟨calls₁, start₁, calls₂, hdone, hnext, rfl⟩ := checkEach_cons (by omega) (fun s hs' => by have := hs s hs'; omega) h
    have hlen₁ : b ≤ (setSegs.set l (setSegs.getD l 0 ||| segBitsAt a (b - 1) l)).length * 64 := by
      rwa [List.length_set]
    rw [cover_append, List.mem_append, or_assoc]
    obtain rfl | hgt := hk.eq_or_lt
    · obtain ⟨s, hs'⟩ := Option.isSome_iff_exists.mp (hstart hlt₀ hnew)
      have hslt := hs s hs'
      obtain ⟨hge, hq⟩ := hq
      rw [← hl] at hq
      have hpend {stop : ℕ} (hstop : q < stop) : q ∈ pend start stop := mem_pend.mpr ⟨s, hs', by omega, hstop⟩
      have hreach : q ∈ pend start (l * 64) ∨ newBits setSegs l (segBitsAt a (b - 1) l) = 0#64 ∧ q ∈ pend start (l * 64 + 64) := by
        obtain hq | ⟨hall, hq⟩ := hq
        · exact .inl (hpend hq)
        · refine .inr ⟨hzero.mpr fun p h1 h2 h3 => ?_, hpend (by omega)⟩
          rw [hB p (by omega)]
          exact hall p h1 h2 h3
      obtain hq | hq := hdone.keeps hreach
      · exact .inl hq
      · exact .inr (checkEach_keeps hb hrest hlen₁ hdone.lt_next hnext (by rwa [add_mul, one_mul]))
    · have hge : l ≤ k := by
        by_contra hlt'
        exact hskip (hgap k hgt (by omega))
      refine .inr (ih hrest (by omega) hlen₁ hdone.lt_next (fun p hp => ?_) (fun hltb hlast => ?_) hnext hge)
      · rw [marked_set_of_ne (by omega), hB p (by omega)]
      · exact hdone.pending hb (by omega) hltb (by rw [hB _ (by omega), hlast])

lemma runOverUnsetRanges_overrun (hb : a < b) (hlen : b ≤ setSegs.length * 64)
    (h : (runOverUnsetRanges setSegs a b : Outcome ε _) = .ok (segs', calls)) (hk : a / 64 ≤ k) (hlt : k < (b - 1) / 64)
    (hskip : ¬ Skipped a b k) (hnew : marked setSegs (k * 64 + 63) = false) (hq : Overrun (marked setSegs) a b k q) (hqb : q < b) :
    q ∈ cover calls := by
  have hl : a / 64 ≤ (b - 1) / 64 := Nat.div_le_div_right (by omega)
  obtain ⟨ks, hks, hf⟩ := exists_follow hl
  rw [runOverUnsetRanges, sub_ok (show 1 ≤ b by omega), ok_bind, visits_eq hl, ok_bind, hks] at h
  obtain ⟨⟨segs, calls', pending⟩, hrun, h⟩ := bind_eq_ok.mp h
  obtain ⟨rfl, rfl⟩ := Prod.mk.inj (ok_inj.mp h)
  obtain ⟨calls₁, start₁, calls₂, hdone, hnext, rfl⟩ := checkEach_cons (by omega) (fun s hs => by cases hs) hrun
  have hrest := checkEach_overrun (B := marked setSegs) hb hf le_rfl (hlen.trans (by rw [List.length_set])) hdone.lt_next
    (fun p hp => marked_set_of_ne (by omega)) (fun hlt' hlast => hdone.pending hb le_rfl hlt' hlast) hnext hk hlt hskip hnew hq
  rw [cover_append, cover_append, List.mem_append, List.mem_append]
  obtain hq | hq := hrest
  · exact .inl (.inr hq)
  · obtain ⟨s, hs, hsq, -⟩ := mem_pend.mp hq
    exact .inr (mem_pend.mpr ⟨s, hs, hsq, hqb⟩)

end Overrun

section Exact

variable {p : ℕ}

/-- The calls are on the bytes of the range that were missing, in order, and then the whole range is marked. -/
structure Exact (setSegs segs' : List (BitVec 64)) (a b : ℕ) (calls : List (ℕ × ℕ)) : Prop where
  apart : calls.Pairwise fun r r' => r.2 ≤ r'.1
  union : ∀ p, (∃ r ∈ calls, r.1 ≤ p ∧ p < r.2) ↔ (a ≤ p ∧ p < b) ∧ marked setSegs p = false
  marks : ∀ p, marked segs' p = true ↔ marked setSegs p = true ∨ a ≤ p ∧ p < b

lemma mem_wordsOf_iff (ha : a ≤ p) (hb : p < b) : p / 64 ∈ wordsOf a (b - 1) ↔ ¬ Skipped a b (p / 64) := by
  have hlo : a / 64 ≤ p / 64 := Nat.div_le_div_right ha
  have hhi : p / 64 ≤ (b - 1) / 64 := Nat.div_le_div_right (by omega)
  rw [wordsOf, Skipped]
  split
  · rw [List.mem_singleton]
    omega
  · rw [List.mem_cons, List.mem_append, List.mem_range'_1, List.mem_singleton]
    omega

section Necessary

variable {segs' : List (BitVec 64)}

lemma Exact.unmarked (h : Exact setSegs segs' a b calls) (hp : p ∈ cover calls) : marked setSegs p = false :=
  ((h.union p).mp (mem_cover.mp hp)).2

lemma Exact.marked_skipped (h : Exact setSegs segs' a b calls) (hm : Marks setSegs segs' a b (wordsOf a (b - 1)))
    (hk : Skipped a b k) (hp : p / 64 = k) : marked setSegs p = true := by
  have hrange : a ≤ p ∧ p < b := by
    have := hk.1
    have := hk.2
    omega
  have hmarked := (h.marks p).mpr (.inr hrange)
  rw [hm.marked_eq, decide_eq_false, Bool.or_false] at hmarked
  · exact hmarked
  · rintro ⟨-, hmem⟩
    exact (mem_wordsOf_iff hrange.1 hrange.2).mp hmem (hp ▸ hk)

/-- A range that is pending behind word `k` and not closed in the next one runs over byte `(k + 1) * 64`, which was there. -/
lemma Exact.chained (h : Exact setSegs segs' a b calls) (hm : Marks setSegs segs' a b (wordsOf a (b - 1))) (hb : a < b)
    (hlen : b ≤ setSegs.length * 64) (hrun : (runOverUnsetRanges setSegs a b : Outcome ε _) = .ok (segs', calls)) :
    Chained (marked setSegs) a b := by
  intro k ha hlt hskip hnew
  by_contra hnone
  push Not at hnone
  have hall : ∀ p, a ≤ p → p < b → p / 64 = wordAfter a b k → marked setSegs p = true := fun p h1 h2 h3 => by
    simpa using hnone p h1 h2 h3
  obtain ⟨hle, -, -, -, hgap⟩ := wordAfter_spec (a := a) hlt
  have hover : Overrun (marked setSegs) a b k ((k + 1) * 64) := ⟨le_rfl, .inr ⟨hall, by omega⟩⟩
  have hq := h.unmarked (runOverUnsetRanges_overrun hb hlen hrun ha hlt hskip hnew hover (by omega))
  have hq' : marked setSegs ((k + 1) * 64) = true := by
    obtain heq | hgt := hle.eq_or_lt
    · exact hall _ (by omega) (by omega) (by omega)
    · exact h.marked_skipped hm (hgap (k + 1) (by omega) hgt) (by omega)
  rw [hq] at hq'
  cases hq'

lemma Exact.before_skipped (h : Exact setSegs segs' a b calls) (hm : Marks setSegs segs' a b (wordsOf a (b - 1))) (hb : a < b)
    (hlen : b ≤ setSegs.length * 64) (hrun : (runOverUnsetRanges setSegs a b : Outcome ε _) = .ok (segs', calls))
    (hk : Skipped a b k) : marked setSegs (k * 64 - 1) = true := by
  have hword := h.marked_skipped hm hk (p := k * 64) (by omega)
  obtain ⟨hlo, hhi⟩ := hk
  by_contra hnew
  have hlast : k * 64 - 1 = (k - 1) * 64 + 63 := by omega
  rw [hlast, Bool.not_eq_true] at hnew
  have hnext : wordAfter a b (k - 1) = k + 1 := by
    rw [wordAfter, Nat.sub_add_cancel (by omega), if_pos ⟨hlo, hhi⟩]
    omega
  have hskip : ¬ Skipped a b (k - 1) := fun hs => by
    have := hs.2
    omega
  have hover : Overrun (marked setSegs) a b (k - 1) (k * 64) := ⟨by omega, .inl (by omega)⟩
  have hq := h.unmarked (runOverUnsetRanges_overrun hb hlen hrun (by omega) (by omega) hskip hnew hover (by omega))
  rw [hword] at hq
  cases hq

end Necessary

/-- A scan is exact if and only if every range that is pending behind a word is closed in the next one, and the word that the loop
leaves out was complete before, with nothing pending in front of it. -/
theorem runOverUnsetRanges_exact_iff (hb : a < b) (hlen : b ≤ setSegs.length * 64) :
    ∃ segs' calls, (runOverUnsetRanges setSegs a b : Outcome Empty _) = .ok (segs', calls) ∧
      (Exact setSegs segs' a b calls ↔ Chained (marked setSegs) a b ∧
        ∀ k, Skipped a b k → marked setSegs (k * 64 - 1) = true ∧ ∀ p, p / 64 = k → marked setSegs p = true) := by
  obtain ⟨segs', calls, hrun, hr, hsorted, -, hm, -⟩ := runOverUnsetRanges_spec (ε := Empty) hb hlen
  refine ⟨segs', calls, hrun, fun h => ⟨h.chained hm hb hlen hrun, fun k hk =>
    ⟨h.before_skipped hm hb hlen hrun hk, fun p hp => h.marked_skipped hm hk hp⟩⟩,
    fun ⟨hchain, hskip⟩ => ⟨?_, fun p => ?_, fun p => ?_⟩⟩
  · exact pairwise_of_cover_sorted hsorted fun r h => (hr r h).2.1
  · rw [← mem_cover, runOverUnsetRanges_cover hb hlen hchain hrun, List.mem_filter, List.mem_range'_1, unset]
    split
    · rename_i hs
      obtain ⟨hbefore, hall⟩ := hskip _ hs
      rw [hbefore, hall p rfl]
      simp
    · rw [Bool.not_eq_true']
      exact and_congr_left fun _ => by omega
  · rw [hm.marked_eq, Bool.or_eq_true, decide_eq_true_eq]
    constructor
    · exact Or.imp_right And.left
    · rintro (hp | hp)
      · exact .inl hp
      · by_cases hs : Skipped a b (p / 64)
        · exact .inl ((hskip _ hs).2 p rfl)
        · exact .inr ⟨hp, (mem_wordsOf_iff hp.1 hp.2).mpr hs⟩

/-- A range over two words of which nothing was received. -/
theorem runOverUnsetRanges_exact_twoWords : ∃ segs' calls, (runOverUnsetRanges [0#64, 0#64] 0 66 : Outcome Empty _) =
    .ok (segs', calls) ∧ Exact [0#64, 0#64] segs' 0 66 calls := by
  have hlen : 66 ≤ [0#64, 0#64].length * 64 := by decide
  obtain ⟨segs', calls, hrun, hexact⟩ := runOverUnsetRanges_exact_iff (a := 0) (by decide) hlen
  refine ⟨segs', calls, hrun, hexact.mpr ⟨fun k hlo hhi _ _ => ?_, fun k hk => ?_⟩⟩
  · obtain rfl : k = 0 := by omega
    exact ⟨64, by decide, by decide, by decide, by decide⟩
  · have := hk.1
    have := hk.2
    omega

/-- Byte 64 was received before, and the range over it stays pending: it is handed over again. -/
theorem missing_bytes_overrun : (runOverUnsetRanges [0#64, 1#64] 0 65 : Outcome Empty _) = .ok ([BitVec.allOnes 64, 1#64], [(0, 65)]) ∧
    marked [0#64, 1#64] 64 = true ∧ ¬ Exact [0#64, 1#64] [BitVec.allOnes 64, 1#64] 0 65 [(0, 65)] := by
  refine ⟨by rfl, by decide, fun h => ?_⟩
  have hnew := ((h.union 64).mp ⟨(0, 65), List.mem_singleton_self _, by decide, by decide⟩).2
  exact absurd hnew (by decide)

end Exact

end Pqsnet.Session.Desegmenter
