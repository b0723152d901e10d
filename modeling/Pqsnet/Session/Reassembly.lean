import Pqsnet.Session.CleanScan
import Pqsnet.Session.Received

/-! Whole runs of the desegmenter over segments of one message. -/

namespace Pqsnet.Session.Desegmenter

open Checked Outcome

/-- A packet handed to `try_new`, `recv` or `recv_mut`, and where its segment begins. -/
structure Call where
  packet : Bytes
  idx : ℕ
  flags : SegFlags

/-- The call carries the segment of `M` from `a` to `b`, which is not empty. -/
structure Carries (M : Bytes) (c : Call) (a b : ℕ) : Prop where
  nonempty : a < b
  le : b ≤ M.length
  header : ∃ messageLen j, (readHeader c.packet c.idx c.flags : Outcome Empty _) =
      .ok (some (a, b - a, messageLen), j) ∧ (∀ n ∈ messageLen, n = M.length) ∧
    j + (b - a) ≤ c.packet.length ∧ (c.packet.drop j).take (b - a) = (M.drop a).take (b - a)

def received (segs : List (ℕ × ℕ)) : Finset ℕ := (cover segs).toFinset

lemma received_concat (segs : List (ℕ × ℕ)) (a b : ℕ) :
    received (segs ++ [(a, b)]) = received segs ∪ Finset.Ico a b := by
  ext p
  simp only [received, List.mem_toFinset, Finset.mem_union, Finset.mem_Ico, mem_cover, List.mem_append,
    List.mem_singleton, or_and_right, exists_or, exists_eq_left]

/-- The scan takes a byte of the segment for a new one exactly when it was not received yet. -/
structure Clean (d : Desegmenter) (segs : List (ℕ × ℕ)) (a b : ℕ) : Prop where
  chained : Chained (marked d.setSegs) a b
  fresh : ∀ p, a ≤ p → p < b → (unset (marked d.setSegs) a b p = true ↔ p ∉ received segs)

/-- The states of a run over segments of `M` in which every call after the first is clean. -/
inductive Reached (M : Bytes) : List (ℕ × ℕ) → Desegmenter → Prop
  | first {malloc : ℕ → Outcome Empty (Option Bytes)} {c : Call} {a b j : ℕ} {d : Desegmenter}
      (halloc : ∀ n mem, malloc n = .ok (some mem) → mem.length = n) (hc : Carries M c a b)
      (hnew : tryNew malloc c.packet c.idx c.flags = .ok (.segmented d, j)) : Reached M [(a, b)] d
  | next {segs : List (ℕ × ℕ)} {d d' : Desegmenter} {c : Call} {a b j : ℕ} {r : Except SegError Bytes}
      (h : Reached M segs d) (hc : Carries M c a b) (hclean : Clean d segs a b)
      (hrecv : (recv d c.packet c.idx c.flags : Outcome Empty _) = .ok (r, d', j)) : Reached M (segs ++ [(a, b)]) d'

/-- What holds of the state after the segments `segs` of `M`. -/
structure Sound (M : Bytes) (segs : List (ℕ × ℕ)) (d : Desegmenter) : Prop where
  len_eq : d.len = M.length
  small : M.length < 2 ^ 64
  words : d.setSegs.length = (M.length + 63) / 64
  le : received segs ⊆ Finset.range M.length
  nodup : (cover d.copied).Nodup
  copied : (cover d.copied).toFinset = received segs
  total : d.totalSet = (received segs).card
  taken : received segs = Finset.range M.length → d.mem = none
  held : received segs ≠ Finset.range M.length → ∃ m, d.mem = some m ∧ m.length = M.length ∧
    ∀ p ∈ received segs, m[p]? = M[p]?

variable {M packet : Bytes} {segs : List (ℕ × ℕ)} {d : Desegmenter} {a b j : ℕ}

/-- What the call that receives the segment from `a` to `b` returns. -/
def answer (M : Bytes) (segs : List (ℕ × ℕ)) (a b : ℕ) : Option Bytes :=
  if received segs ≠ Finset.range M.length ∧ received (segs ++ [(a, b)]) = Finset.range M.length then some M
  else none

lemma getElem?_segment (hdata : (packet.drop j).take (b - a) = (M.drop a).take (b - a)) {p : ℕ} (ha : a ≤ p) (hp : p < b) :
    packet[j + (p - a)]? = M[p]? := by
  have h := congrArg (·[p - a]?) hdata
  simp only [List.getElem?_take_of_lt (show p - a < b - a by omega), List.getElem?_drop] at h
  rwa [show a + (p - a) = p by omega] at h

lemma Clean.calls (h : Clean d segs a b) (hab : a < b) (hlen : b ≤ d.setSegs.length * 64) :
    ∃ setSegs' calls, (runOverUnsetRanges d.setSegs a b : Outcome Empty _) = .ok (setSegs', calls) ∧
      setSegs'.length = d.setSegs.length ∧ (∀ r ∈ calls, a ≤ r.1 ∧ r.1 < r.2 ∧ r.2 ≤ b) ∧ (cover calls).Nodup ∧
      (cover calls).toFinset = Finset.Ico a b \ received segs := by
  obtain ⟨setSegs', calls, hrun, hr, hsorted, -, hm, -⟩ := runOverUnsetRanges_spec (ε := Empty) hab hlen
  refine ⟨setSegs', calls, hrun, hm.length_eq, hr, hsorted.imp (fun h => ne_of_lt h), ?_⟩
  ext p
  rw [runOverUnsetRanges_cover hab hlen h.chained hrun, List.mem_toFinset, List.mem_filter, List.mem_range'_1,
    Finset.mem_sdiff, Finset.mem_Ico]
  constructor
  · rintro ⟨hp, hu⟩
    exact ⟨by omega, (h.fresh p (by omega) (by omega)).mp hu⟩
  · rintro ⟨hp, hn⟩
    exact ⟨by omega, (h.fresh p hp.1 hp.2).mpr hn⟩

section Step

variable {setSegs' : List (BitVec 64)} {calls : List (ℕ × ℕ)}

lemma received_of_calls (hcalls : (cover calls).toFinset = Finset.Ico a b \ received segs) :
    received (segs ++ [(a, b)]) = received segs ∪ (cover calls).toFinset := by
  rw [received_concat, hcalls, Finset.union_sdiff_self_eq_union]

lemma Sound.le_concat (h : Sound M segs d) (hb : b ≤ M.length) :
    received (segs ++ [(a, b)]) ⊆ Finset.range M.length := by
  rw [received_concat]
  refine Finset.union_subset h.le fun p hp => ?_
  rw [Finset.mem_Ico] at hp
  exact Finset.mem_range.mpr (by omega)

lemma Sound.total_concat (h : Sound M segs d) (hnodup : (cover calls).Nodup)
    (hcalls : (cover calls).toFinset = Finset.Ico a b \ received segs) :
    d.totalSet + (cover calls).length = (received (segs ++ [(a, b)])).card := by
  rw [h.total, ← List.toFinset_card_of_nodup hnodup, received_of_calls hcalls, Finset.card_union_of_disjoint]
  rw [hcalls]
  exact Finset.disjoint_sdiff

lemma Sound.after (h : Sound M segs d) (hb : b ≤ M.length) (hlen : setSegs'.length = d.setSegs.length)
    (hnodup : (cover calls).Nodup) (hcalls : (cover calls).toFinset = Finset.Ico a b \ received segs)
    {mem : Option Bytes} (htaken : received (segs ++ [(a, b)]) = Finset.range M.length → mem = none)
    (hheld : received (segs ++ [(a, b)]) ≠ Finset.range M.length → ∃ m, mem = some m ∧ m.length = M.length ∧
      ∀ p ∈ received (segs ++ [(a, b)]), m[p]? = M[p]?) :
    Sound M (segs ++ [(a, b)]) (d.after mem setSegs' calls) where
  len_eq := h.len_eq
  small := h.small
  words := hlen.trans h.words
  le := h.le_concat hb
  nodup := by
    change (cover (d.copied ++ calls)).Nodup
    rw [cover_append]
    refine h.nodup.append hnodup fun p hp hq => ?_
    rw [← List.mem_toFinset, h.copied] at hp
    rw [← List.mem_toFinset, hcalls, Finset.mem_sdiff] at hq
    exact hq.2 hp
  copied := by
    change (cover (d.copied ++ calls)).toFinset = _
    rw [cover_append, List.toFinset_append, h.copied, received_of_calls hcalls]
  total := h.total_concat hnodup hcalls
  taken := htaken
  held := hheld

lemma Sound.getElem? {m m' : Bytes} (hm : ∀ p ∈ received segs, m[p]? = M[p]?)
    (hcalls : (cover calls).toFinset = Finset.Ico a b \ received segs)
    (hdata : (packet.drop j).take (b - a) = (M.drop a).take (b - a))
    (hget : ∀ p, m'[p]? = if p ∈ cover calls then packet[j + (p - a)]? else m[p]?) :
    ∀ p ∈ received (segs ++ [(a, b)]), m'[p]? = M[p]? := by
  intro p hp
  rw [received_of_calls hcalls, Finset.mem_union, List.mem_toFinset] at hp
  rw [hget]
  by_cases hc : p ∈ cover calls
  · rw [if_pos hc]
    rw [← List.mem_toFinset, hcalls, Finset.mem_sdiff, Finset.mem_Ico] at hc
    exact getElem?_segment hdata hc.1.1 hc.1.2
  · rw [if_neg hc]
    exact hm p (hp.resolve_right hc)

end Step

lemma eq_of_received {m : Bytes} (hlen : m.length = M.length) (hr : received segs = Finset.range M.length)
    (hm : ∀ p ∈ received segs, m[p]? = M[p]?) : m = M := by
  apply List.ext_getElem?
  intro p
  by_cases hp : p < M.length
  · exact hm p (by rw [hr]; exact Finset.mem_range.mpr hp)
  · rw [List.getElem?_eq_none (by omega), List.getElem?_eq_none (by omega)]

lemma Sound.recvInner (h : Sound M segs d) (hclean : Clean d segs a b) (hab : a < b) (hb : b ≤ M.length)
    (hp : j + (b - a) ≤ packet.length) (hdata : (packet.drop j).take (b - a) = (M.drop a).take (b - a)) :
    ∃ d', (recvInner d packet j a (b - a) : Outcome Empty _) = .ok (answer M segs a b, d', j + (b - a)) ∧
      Sound M (segs ++ [(a, b)]) d' := by
  have hsmall := h.small
  have hwords := h.words
  obtain ⟨setSegs', calls, hrun, hlen, hr, hnodup, hcalls⟩ := hclean.calls hab (by omega)
  have hle := h.le_concat (a := a) hb
  have htotal := h.total_concat hnodup hcalls
  have hcard : (received (segs ++ [(a, b)])).card ≤ M.length := by
    simpa using Finset.card_le_card hle
  by_cases hnil : calls = []
  · subst hnil
    have hsame : received (segs ++ [(a, b)]) = received segs := by simpa using received_of_calls hcalls
    refine ⟨d.after d.mem setSegs' [], ?_, h.after hb hlen hnodup hcalls (by rw [hsame]; exact h.taken)
      (by rw [hsame]; exact h.held)⟩
    rw [recvInner_nil hab.le (by omega) (by rw [h.total, ← hsame]; omega) hrun, answer, hsame,
      if_neg (fun hh => hh.1 hh.2)]
  · obtain ⟨r, hrc⟩ := List.exists_mem_of_ne_nil calls hnil
    have hmem : r.1 ∈ cover calls := mem_cover.mpr ⟨r, hrc, le_rfl, (hr r hrc).2.1⟩
    have hnew : r.1 ∉ received segs ∧ r.1 < M.length := by
      have := hr r hrc
      rw [← List.mem_toFinset, hcalls, Finset.mem_sdiff] at hmem
      exact ⟨hmem.2, by omega⟩
    have hopen : received segs ≠ Finset.range M.length := fun hh => hnew.1 (by rw [hh]; exact Finset.mem_range.mpr hnew.2)
    obtain ⟨m, hdm, hml, hmM⟩ := h.held hopen
    obtain ⟨m', hml', hget, heq⟩ := recvInner_cons (ε := Empty) hab.le (by omega) hdm (by omega) hp (by omega)
      (List.length_pos_of_mem hmem) hr hrun
    have hmM' := Sound.getElem? hmM hcalls hdata hget
    have hfull : d.totalSet + (cover calls).length = d.len ↔ received (segs ++ [(a, b)]) = Finset.range M.length := by
      rw [htotal, h.len_eq]
      constructor
      · intro hc
        exact Finset.eq_of_subset_of_card_le hle (by rw [Finset.card_range, hc])
      · intro hc
        rw [hc, Finset.card_range]
    by_cases hdone : received (segs ++ [(a, b)]) = Finset.range M.length
    · refine ⟨_, ?_, h.after hb hlen hnodup hcalls (fun _ => rfl) (fun hh => absurd hdone hh)⟩
      rw [heq, if_pos (hfull.mpr hdone), answer, if_pos ⟨hopen, hdone⟩,
        eq_of_received (hml'.trans hml) hdone hmM']
    · refine ⟨_, ?_, h.after hb hlen hnodup hcalls (fun hh => absurd hh hdone)
        (fun _ => ⟨m', rfl, hml'.trans hml, hmM'⟩)⟩
      rw [heq, if_neg (fun hh => hdone (hfull.mp hh)), answer, if_neg (fun hh => hdone hh.2)]

lemma Sound.recv {c : Call} (h : Sound M segs d) (hc : Carries M c a b) (hclean : Clean d segs a b) :
    ∃ d' j, (recv d c.packet c.idx c.flags : Outcome Empty _) =
        .ok ((match answer M segs a b with | some m => .ok m | none => .error .segmented), d', j) ∧
      Sound M (segs ++ [(a, b)]) d' := by
  obtain ⟨messageLen, j, hheader, hml, hp, hdata⟩ := hc.header
  obtain ⟨d', hinner, hsound⟩ := h.recvInner hclean hc.nonempty hc.le hp hdata
  have hn : ¬ ∃ n ∈ messageLen, n ≠ d.len := by
    rintro ⟨n, hn, hne⟩
    exact hne ((hml n hn).trans h.len_eq.symm)
  refine ⟨d', j + (b - a), ?_, hsound⟩
  simp only [Desegmenter.recv, hheader, ok_bind, if_neg hn, hinner]
  cases answer M segs a b <;> rfl

/-! The first segment. -/

lemma marked_empty (mem : Bytes) (n p : ℕ) : marked (empty mem n).setSegs p = false := by
  have h0 : (List.replicate ((mem.length + 63) / 64) (0 : BitVec 64)).getD (p / 64) 0 = 0 := by
    rw [List.getD_eq_getElem?_getD, List.getElem?_replicate]
    split <;> rfl
  rw [marked, empty, h0]
  exact BitVec.getLsbD_zero

lemma clean_empty (mem : Bytes) (n a b : ℕ) : Clean (empty mem n) [] a b := by
  refine ⟨fun k ha hlt _ _ => ?_, fun p _ _ => ?_⟩
  · obtain ⟨hle, -, hlb, -, -⟩ := wordAfter_spec (a := a) hlt
    exact ⟨wordAfter a b k * 64, by omega, by omega, by omega, marked_empty mem n _⟩
  · simp [unset, marked_empty, received]

lemma sound_empty {mem : Bytes} (hmem : mem.length = M.length) (hpos : 0 < M.length) (hsmall : M.length < 2 ^ 64) :
    Sound M [] (empty mem M.length) where
  len_eq := rfl
  small := hsmall
  words := by simp [empty, hmem]
  le := by simp [received]
  nodup := List.nodup_nil
  copied := rfl
  total := rfl
  taken := fun h => by
    have := congrArg Finset.card h
    simp [received] at this
    omega
  held := fun _ => ⟨mem, rfl, hmem, by simp [received]⟩

lemma sound_first {malloc : ℕ → Outcome Empty (Option Bytes)} {c : Call}
    (halloc : ∀ n mem, malloc n = .ok (some mem) → mem.length = n) (hc : Carries M c a b)
    (hnew : tryNew malloc c.packet c.idx c.flags = .ok (.segmented d, j)) : Sound M [(a, b)] d := by
  obtain ⟨messageLen, i, hheader, hml, hp, hdata⟩ := hc.header
  obtain ⟨-, hlen, -, -⟩ := readHeader_inv hheader
  have hpos := hc.nonempty
  have hle := hc.le
  simp only [tryNew, hheader, ok_bind] at hnew
  cases messageLen with
  | none => simp at hnew
  | some n =>
    obtain rfl := hml n rfl
    dsimp only at hnew
    split at hnew
    · simp at hnew
    obtain ⟨o, hm, hnew⟩ := bind_eq_ok.mp hnew
    cases o with
    | none => simp at hnew
    | some mem =>
      have hsmall : M.length < 2 ^ 64 := by
        have := (hlen M.length rfl).2
        omega
      obtain ⟨d', hinner, hsound⟩ := (sound_empty (halloc _ mem hm) (by omega) hsmall).recvInner
        (clean_empty mem M.length a b) hpos hle hp hdata
      simp only [hinner, ok_bind, ok_inj, Prod.mk.injEq, NewResult.segmented.injEq] at hnew
      rw [← hnew.1]
      exact hsound

lemma Reached.sound (h : Reached M segs d) : Sound M segs d := by
  induction h with
  | first halloc hc hnew => exact sound_first halloc hc hnew
  | next _ hc hclean hrecv ih =>
    obtain ⟨d', j, hrecv', hsound⟩ := ih.recv hc hclean
    rw [hrecv', ok_inj, Prod.mk.injEq, Prod.mk.injEq] at hrecv
    rw [← hrecv.2.1]
    exact hsound

/-- In a run whose calls are all clean, the count of bytes is that of the distinct bytes received, no
byte is copied twice, and each further clean call returns: with the message if it is the one that
completes it, and with `Segmented` if not. -/
theorem reassembles_of_clean (h : Reached M segs d) :
    d.totalSet = (received segs).card ∧ (cover d.copied).Nodup ∧
      ∀ (c : Call) (a b : ℕ), Carries M c a b → Clean d segs a b →
        ∃ d' j, (recv d c.packet c.idx c.flags : Outcome Empty _) =
            .ok (if received segs ≠ Finset.range M.length ∧ received (segs ++ [(a, b)]) = Finset.range M.length
              then .ok M else .error .segmented, d', j) ∧
          recvMut d c.packet c.idx c.flags = (recv d c.packet c.idx c.flags : Outcome Empty _) ∧
          d'.totalSet = (received (segs ++ [(a, b)])).card ∧ (cover d'.copied).Nodup := by
  have hs := h.sound
  refine ⟨hs.total, hs.nodup, fun c a b hc hclean => ?_⟩
  obtain ⟨d', j, hrecv, hsound⟩ := hs.recv hc hclean
  refine ⟨d', j, ?_, rfl, hsound.total, hsound.nodup⟩
  rw [hrecv, answer]
  by_cases hdone : received segs ≠ Finset.range M.length ∧ received (segs ++ [(a, b)]) = Finset.range M.length
  · rw [if_pos hdone, if_pos hdone]
  · rw [if_neg hdone, if_neg hdone]

/-- A packet that holds nothing but a segment, with all three fields. -/
def wholePacket (len off : ℕ) (data : Bytes) : Call :=
  ⟨varusizeWrite len ++ (varusizeWrite off ++ data), 0, ⟨true, true, true⟩⟩

def zeroed (n : ℕ) : Outcome Empty (Option Bytes) := .ok (some (List.replicate n 0))

/-- The first byte of a message of two. -/
def firstByte : Desegmenter := ⟨some [1, 0], 2, 1, [1], [(0, 1)]⟩

theorem reassembles_of_clean_pair :
    firstByte.totalSet = (received [(0, 1)]).card ∧ (cover firstByte.copied).Nodup ∧
      ∃ d j, (recv firstByte (wholePacket 2 1 [2]).packet 0 ⟨true, true, true⟩ : Outcome Empty _) =
          .ok (if received [(0, 1)] ≠ Finset.range 2 ∧ received ([(0, 1)] ++ [(1, 2)]) = Finset.range 2
            then .ok [1, 2] else .error .segmented, d, j) ∧
        recvMut firstByte (wholePacket 2 1 [2]).packet 0 ⟨true, true, true⟩ =
          (recv firstByte (wholePacket 2 1 [2]).packet 0 ⟨true, true, true⟩ : Outcome Empty _) ∧
        d.totalSet = (received ([(0, 1)] ++ [(1, 2)])).card ∧ (cover d.copied).Nodup := by
  have hfirst : Carries [1, 2] (wholePacket 2 0 [1]) 0 1 :=
    ⟨by decide, by decide, some 2, 2, by rfl, by simp, by decide, by rfl⟩
  have hsecond : Carries [1, 2] (wholePacket 2 1 [2]) 1 2 :=
    ⟨by decide, by decide, some 2, 2, by rfl, by simp, by decide, by rfl⟩
  have hclean : Clean firstByte [(0, 1)] 1 2 := by
    refine ⟨fun k _ hk => by omega, fun p h1 h2 => ?_⟩
    obtain rfl : p = 1 := by omega
    decide
  have hreached : Reached [1, 2] [(0, 1)] firstByte :=
    .first (j := 3) (show ∀ n mem, zeroed n = .ok (some mem) → mem.length = n from fun n mem h => by
      rw [zeroed, ok_inj, Option.some.injEq] at h
      rw [← h, List.length_replicate]) hfirst (by rfl)
  have h := reassembles_of_clean hreached
  exact ⟨h.1, h.2.1, h.2.2 _ 1 2 hsecond hclean⟩

/-! Two segments that overlap at a word boundary: the second covers byte 64 again, so the range that is
pending at the end of its first word stays open, and is copied and counted with that byte in it. -/

/-- Byte 64 alone. -/
def byte64 : Desegmenter := ⟨some (List.replicate 64 0 ++ [1, 0]), 66, 1, [0, 1], [(64, 65)]⟩

theorem overlap_completes_early :
    Carries (List.replicate 66 1) (wholePacket 66 64 [1]) 64 65 ∧
      Carries (List.replicate 66 1) (wholePacket 66 0 (List.replicate 65 1)) 0 65 ∧
      tryNew zeroed (wholePacket 66 64 [1]).packet 0 ⟨true, true, true⟩ = .ok (.segmented byte64, 5) ∧
      ∃ d j, (recv byte64 (wholePacket 66 0 (List.replicate 65 1)).packet 0 ⟨true, true, true⟩ : Outcome Empty _) =
          .ok (.ok (List.replicate 65 1 ++ [0]), d, j) ∧
        received [(64, 65), (0, 65)] ≠ Finset.range 66 ∧ ¬ (cover d.copied).Nodup ∧
        d.totalSet ≠ (received [(64, 65), (0, 65)]).card := by
  refine ⟨⟨by decide, by decide, some 66, 4, by rfl, by simp, by decide, by rfl⟩,
    ⟨by decide, by decide, some 66, 3, by rfl, by simp, by decide, by rfl⟩, by rfl,
    ⟨none, 66, 66, [BitVec.allOnes 64, 1], [(64, 65), (0, 65)]⟩, 68, by rfl, fun h => ?_, fun h => ?_, ?_⟩
  · have h65 : 65 ∈ received [(64, 65), (0, 65)] := by
      rw [h]
      decide
    revert h65
    simp [received]
  · rw [cover_cons, List.nodup_append] at h
    exact h.2.2 64 (by decide) 64 (by decide) rfl
  · have hc : received [(64, 65), (0, 65)] = Finset.range 65 := by
      ext p
      simp only [received, List.mem_toFinset, mem_cover, List.mem_cons, List.not_mem_nil, or_false, exists_eq_or_imp,
        exists_eq_left, Finset.mem_range]
      omega
    rw [hc, Finset.card_range]
    decide

end Pqsnet.Session.Desegmenter
