import Pqsnet.Session.Bitmap

/-! What receiving one segment does to the memory and to the count of bytes. -/

namespace Pqsnet.Session.Desegmenter

open Checked Outcome

variable {ε : Type} {packet m : Bytes} {idx a b : ℕ} {calls : List (ℕ × ℕ)}

lemma readField_inv {has : Bool} {j : ℕ} {o : Option ℕ} (h : (readField has packet idx : Outcome ε _) = .ok (some o, j)) :
    (has = true → o.isSome = true) ∧ ∀ n ∈ o, n < 2 ^ 30 ∨ 3 * 2 ^ 62 ≤ n ∧ n < 2 ^ 64 := by
  unfold readField at h
  split at h
  · obtain ⟨⟨v, i⟩, hread, h⟩ := bind_eq_ok.mp h
    simp only [ok_inj, Prod.mk.injEq] at h
    obtain ⟨n, rfl, rfl⟩ := Option.map_eq_some_iff.mp h.1
    exact ⟨fun _ => rfl, fun m hm => by cases hm; exact (tryRead_value hread).imp_right fun h => ⟨h.1, h.2.1⟩⟩
  · rename_i hhas
    simp only [ok_inj, Prod.mk.injEq, Option.some.injEq] at h
    obtain ⟨rfl, -⟩ := h
    exact ⟨fun hh => absurd hh hhas, by simp⟩

lemma readHeader_inv {flags : SegFlags} {off segLen j : ℕ} {messageLen : Option ℕ}
    (h : (readHeader packet idx flags : Outcome ε _) = .ok (some (off, segLen, messageLen), j)) :
    off + segLen < 2 ^ 64 ∧
      (∀ n ∈ messageLen, off + segLen ≤ n ∧ (n < 2 ^ 30 ∨ 3 * 2 ^ 62 ≤ n ∧ n < 2 ^ 64)) ∧
      (flags.hasLen = true → messageLen.isSome = true) ∧
      (flags.isTerminator = true → j + segLen = packet.length) := by
  unfold readHeader at h
  obtain ⟨⟨ml, i₁⟩, hlen, h⟩ := bind_eq_ok.mp h
  cases ml with
  | none => simp at h
  | some ml =>
    obtain ⟨⟨o, i₂⟩, hoff, h⟩ := bind_eq_ok.mp h
    cases o with
    | none => simp at h
    | some o =>
      obtain ⟨⟨sl, i₃⟩, hseg, h⟩ := bind_eq_ok.mp h
      cases sl with
      | none => simp at h
      | some sl =>
        dsimp only at h
        split at h
        · simp at h
        rename_i hc
        simp only [ok_inj, Prod.mk.injEq, Option.some.injEq] at h
        obtain ⟨⟨rfl, rfl, rfl⟩, rfl⟩ := h
        push Not at hc
        refine ⟨hc.1, fun n hn => ⟨hc.2 n hn, (readField_inv hlen).2 n hn⟩, (readField_inv hlen).1, fun ht => ?_⟩
        obtain ⟨rem, hrem, hseg⟩ := bind_eq_ok.mp hseg
        rw [if_pos ht, ok_inj, Prod.mk.injEq, Option.some.injEq] at hseg
        obtain ⟨rfl, rfl⟩ := hseg
        unfold sub at hrem
        split at hrem
        · rw [ok_inj] at hrem
          omega
        · simp at hrem

lemma copyRange_ok {r : ℕ × ℕ} (hr : a ≤ r.1 ∧ r.1 ≤ r.2 ∧ r.2 ≤ b) (hm : b ≤ m.length)
    (hp : idx + (b - a) ≤ packet.length) (n : ℕ) :
    ∃ m', (copyRange packet idx a (some m, n) r : Outcome ε _) = .ok (some m', n + (r.2 - r.1)) ∧
      m'.length = m.length ∧
      ∀ p, m'[p]? = if r.1 ≤ p ∧ p < r.2 then packet[idx + (p - a)]? else m[p]? := by
  have hsrc : ((packet.take (idx + r.2 - a)).drop (idx + r.1 - a)).length = r.2 - r.1 := by
    rw [List.length_drop, List.length_take]
    omega
  have hdst : ((m.take r.2).drop r.1).length = r.2 - r.1 := by
    rw [List.length_drop, List.length_take]
    omega
  refine ⟨m.take r.1 ++ (packet.take (idx + r.2 - a)).drop (idx + r.1 - a) ++ m.drop r.2, ?_, ?_, fun p => ?_⟩
  · simp only [copyRange, unwrap_some, ok_bind, sub_ok (show a ≤ idx + r.1 by omega),
      sub_ok (show a ≤ idx + r.2 by omega), sub_ok hr.2.1, writeSlice, copyFromSlice,
      slice_ok (show idx + r.1 - a ≤ idx + r.2 - a by omega) (show idx + r.2 - a ≤ packet.length by omega),
      slice_ok hr.2.1 (show r.2 ≤ m.length by omega), hsrc, hdst, ↓reduceIte]
  · simp only [List.length_append, hsrc, List.length_take, List.length_drop]
    omega
  · rw [getElem?_splice hr.2.1 (by omega) hsrc]
    split
    · rename_i h
      rw [List.getElem?_drop, List.getElem?_take_of_lt (by omega)]
      congr 1
      omega
    · rfl

lemma foldlM_copyRange (hr : ∀ r ∈ calls, a ≤ r.1 ∧ r.1 ≤ r.2 ∧ r.2 ≤ b) (hm : b ≤ m.length)
    (hp : idx + (b - a) ≤ packet.length) (n : ℕ) :
    ∃ m', (calls.foldlM (copyRange packet idx a) (some m, n) : Outcome ε _) =
        .ok (some m', n + (cover calls).length) ∧ m'.length = m.length ∧
      ∀ p, m'[p]? = if p ∈ cover calls then packet[idx + (p - a)]? else m[p]? := by
  induction calls generalizing m n with
  | nil => exact ⟨m, by simp, rfl, by simp⟩
  | cons r rs ih =>
    obtain ⟨m₁, h₁, hl₁, hg₁⟩ := copyRange_ok (ε := ε) (hr r (by simp)) hm hp n
    obtain ⟨m₂, h₂, hl₂, hg₂⟩ := ih (m := m₁) (fun s hs => hr s (List.mem_cons_of_mem _ hs)) (by omega)
      (n + (r.2 - r.1))
    refine ⟨m₂, ?_, hl₂.trans hl₁, fun p => ?_⟩
    · rw [List.foldlM_cons, h₁, ok_bind, h₂, cover_cons, List.length_append, List.length_range', Nat.add_assoc]
    · have hmem : p ∈ cover (r :: rs) ↔ (r.1 ≤ p ∧ p < r.2) ∨ p ∈ cover rs := by
        rw [cover_cons, List.mem_append, List.mem_range'_1]
        have := hr r (by simp)
        constructor
        · rintro (h | h)
          · exact .inl (by omega)
          · exact .inr h
        · rintro (h | h)
          · exact .inl (by omega)
          · exact .inr h
      rw [hg₂, hg₁]
      by_cases h1 : p ∈ cover rs
      · rw [if_pos h1, if_pos (hmem.mpr (.inr h1))]
      · by_cases h2 : r.1 ≤ p ∧ p < r.2
        · rw [if_neg h1, if_pos h2, if_pos (hmem.mpr (.inl h2))]
        · rw [if_neg h1, if_neg h2, if_neg (fun h => (hmem.mp h).elim h2 h1)]

/-- The state after the calls on a segment from `a` to `b` were made. -/
def after (d : Desegmenter) (mem : Option Bytes) (setSegs : List (BitVec 64)) (calls : List (ℕ × ℕ)) :
    Desegmenter :=
  ⟨mem, d.len, d.totalSet + (cover calls).length, setSegs, d.copied ++ calls⟩

variable {d : Desegmenter} {setSegs' : List (BitVec 64)}

lemma recvInner_nil (hab : a ≤ b) (hb : b < 2 ^ 64) (ht : d.totalSet < 2 ^ 64)
    (hrun : (runOverUnsetRanges d.setSegs a b : Outcome ε _) = .ok (setSegs', [])) :
    (recvInner d packet idx a (b - a) : Outcome ε _) = .ok (none, d.after d.mem setSegs' [], idx + (b - a)) := by
  have hadd : a + (b - a) = b := by omega
  simp only [recvInner, add_ok (show a + (b - a) < 2 ^ 64 by omega), hadd, hrun, ok_bind, List.foldlM_nil, pure_eq,
    gt_iff_lt, lt_self_iff_false, ↓reduceIte, after, cover_nil, List.length_nil, Nat.add_zero, Nat.mod_eq_of_lt ht]

lemma recvInner_cons (hab : a ≤ b) (hb : b < 2 ^ 64) (hmem : d.mem = some m) (hm : b ≤ m.length)
    (hp : idx + (b - a) ≤ packet.length) (ht : d.totalSet + (cover calls).length < 2 ^ 64)
    (hpos : 0 < (cover calls).length) (hr : ∀ r ∈ calls, a ≤ r.1 ∧ r.1 < r.2 ∧ r.2 ≤ b)
    (hrun : (runOverUnsetRanges d.setSegs a b : Outcome ε _) = .ok (setSegs', calls)) :
    ∃ m', m'.length = m.length ∧ (∀ p, m'[p]? = if p ∈ cover calls then packet[idx + (p - a)]? else m[p]?) ∧
      (recvInner d packet idx a (b - a) : Outcome ε _) =
        if d.totalSet + (cover calls).length = d.len then
          .ok (some m', d.after none setSegs' calls, idx + (b - a))
        else .ok (none, d.after (some m') setSegs' calls, idx + (b - a)) := by
  obtain ⟨m', hfold, hlen, hget⟩ := foldlM_copyRange (ε := ε) (fun r h => ⟨(hr r h).1, (hr r h).2.1.le, (hr r h).2.2⟩)
    hm hp 0
  rw [Nat.zero_add] at hfold
  have hadd : a + (b - a) = b := by omega
  refine ⟨m', hlen, hget, ?_⟩
  simp only [recvInner, add_ok (show a + (b - a) < 2 ^ 64 by omega), hadd, hrun, ok_bind, hmem, hfold, gt_iff_lt, hpos,
    ↓reduceIte, add_ok ht, Nat.mod_eq_of_lt ht, after]

end Pqsnet.Session.Desegmenter
