import Pqsnet.Checked.BitRuns

/-! Bitmaps in a list of words. The first position of a word is its highest bit. -/

namespace Pqsnet.Checked

variable {w : ℕ} {ws : List (BitVec w)} {x y : BitVec w} {i k n : ℕ}

def isMarked (ws : List (BitVec w)) (k : ℕ) : Bool := ws[k / w]?.any fun x => x.getMsbD (k % w)

lemma isMarked_cons_of_lt (hk : k < w) : isMarked (x :: ws) k = x.getMsbD k := by
  rw [isMarked, Nat.div_eq_of_lt hk, Nat.mod_eq_of_lt hk]
  rfl

lemma isMarked_cons_add (hw : 0 < w) : isMarked (x :: ws) (w + k) = isMarked ws k := by
  rw [isMarked, Nat.add_div_left k hw, Nat.add_mod_left]
  rfl

lemma lt_of_isMarked (hw : 0 < w) (h : isMarked ws k) : k < w * ws.length := by
  rw [isMarked] at h
  cases hx : ws[k / w]? with
  | none =>
    rw [hx] at h
    cases h
  | some x =>
    obtain ⟨hlt, -⟩ := List.getElem?_eq_some_iff.mp hx
    rw [mul_comm]
    exact (Nat.div_lt_iff_lt_mul hw).mp hlt

lemma not_isMarked_replicate (n k : ℕ) : ¬ isMarked (List.replicate n 0#w) k := by
  intro h
  rw [isMarked, List.getElem?_replicate] at h
  split_ifs at h
  · rw [Option.any_some, BitVec.getMsbD_zero] at h
    cases h
  · cases h

lemma isMarked_set_or (hx : ws[i]? = some x) :
    isMarked (ws.set i (x ||| y)) k ↔ isMarked ws k ∨ k / w = i ∧ y.getMsbD (k % w) := by
  rw [isMarked, isMarked]
  by_cases hk : k / w = i
  · obtain ⟨hlt, -⟩ := List.getElem?_eq_some_iff.mp hx
    rw [hk, List.getElem?_set_self hlt, hx, Option.any_some, Option.any_some, BitVec.getMsbD_or, Bool.or_eq_true,
      and_iff_right rfl]
  · rw [List.getElem?_set_ne (Ne.symm hk), or_iff_left fun h => hk h.1]

lemma ones_length_eq_filter_getMsbD (x : BitVec w) : (ones x).length = ((List.range w).filter x.getMsbD).length := by
  have hrev : (List.range w).reverse = (List.range w).map (w - 1 - ·) := by
    have h := List.reverse_range' (s := 0) (n := w)
    rwa [← List.range_eq_range', Nat.zero_add] at h
  have hflip : (List.range w).filter x.getMsbD = (List.range w).filter (x.getLsbD ∘ (w - 1 - ·)) := by
    apply List.filter_congr
    intro i hi
    rw [BitVec.getMsbD, decide_eq_true (List.mem_range.mp hi), Bool.true_and, Function.comp]
  calc (ones x).length
    _ = ((List.range w).reverse.filter x.getLsbD).length := by rw [List.filter_reverse, List.length_reverse, ones]
    _ = ((List.range w).filter x.getMsbD).length := by rw [hrev, List.filter_map, List.length_map, hflip]

/-- The marked positions, in order. -/
def marked (ws : List (BitVec w)) : List ℕ := (List.range (w * ws.length)).filter (isMarked ws)

lemma mem_marked (hw : 0 < w) : k ∈ marked ws ↔ isMarked ws k := by
  rw [marked, List.mem_filter, List.mem_range, and_iff_right_iff_imp]
  exact lt_of_isMarked hw

lemma marked_length (hw : 0 < w) (ws : List (BitVec w)) : (marked ws).length = (ws.map fun x => (ones x).length).sum := by
  induction ws with
  | nil => rfl
  | cons x ws ih =>
    have hhead : (List.range w).filter (isMarked (x :: ws)) = (List.range w).filter x.getMsbD :=
      List.filter_congr fun k hk => isMarked_cons_of_lt (List.mem_range.mp hk)
    have htail : isMarked (x :: ws) ∘ (w + ·) = isMarked ws := funext fun k => isMarked_cons_add hw
    rw [marked, List.length_cons, Nat.mul_succ, Nat.add_comm, List.range_add, List.filter_append, List.filter_map, htail, hhead,
      List.length_append, List.length_map, ← ones_length_eq_filter_getMsbD, ← marked, ih, List.map_cons, List.sum_cons]

lemma isMarked_of_sum_eq (hw : 0 < w) (hlt : ∀ k, isMarked ws k → k < n) (hsum : (ws.map fun x => (ones x).length).sum = n)
    (hk : k < n) : isMarked ws k := by
  have hnodup : (marked ws).Nodup := List.nodup_range.filter _
  have hsub : marked ws ⊆ List.range n := fun k hk => List.mem_range.mpr (hlt k ((mem_marked hw).mp hk))
  have hperm : (marked ws).Perm (List.range n) := by
    apply (List.subperm_of_subset hnodup hsub).perm_of_length_le
    rw [List.length_range, marked_length hw, hsum]
  exact (mem_marked hw).mp (hperm.mem_iff.mpr (List.mem_range.mpr hk))

end Pqsnet.Checked
