import Pqsnet.Session.Reassembly

/-! Which segments can be received without leaving the packet, the memory of the message or the bitmap. -/

namespace Pqsnet.Session.Desegmenter

open Checked Outcome

variable {ε : Type} {packet m : Bytes} {idx off segLen j n : ℕ} {flags : SegFlags} {messageLen : Option ℕ} {d : Desegmenter}
  {calls : List (ℕ × ℕ)}

/-- Still at work on its message, with a memory and a bitmap as `try_new` allocates them. -/
structure Sized (d : Desegmenter) : Prop where
  pos : 0 < d.len
  mem : ∃ m, d.mem = some m ∧ m.length = d.len
  words : d.setSegs.length = (d.len + 63) / 64
  total : d.totalSet + d.len < 2 ^ 64

/-- No reader of the segment at `idx` leaves the packet, the message or the bitmap, in whatever state the message is. -/
structure InBounds (packet : Bytes) (idx : ℕ) (flags : SegFlags) : Prop where
  header : ∃ header j, (readHeader packet idx flags : Outcome Empty _) = .ok (header, j) ∧ j ≤ packet.length ∧
    ∀ off segLen messageLen, header = some (off, segLen, messageLen) →
      j + segLen ≤ packet.length ∧ off + segLen < 2 ^ 64 ∧ ∀ n ∈ messageLen, off + segLen ≤ n
  recv : ∀ d : Desegmenter, d.Sized → Returns (recv d packet idx flags : Outcome Empty _)
  recvMut : ∀ d : Desegmenter, d.Sized → Returns (recvMut d packet idx flags : Outcome Empty _)
  tryNew : ∀ malloc : ℕ → Option Bytes, (∀ n, ∀ mem ∈ malloc n, mem.length = n) →
    ∃ res j, (tryNew (fun n => .ok (malloc n)) packet idx flags : Outcome Empty _) = .ok (res, j) ∧
      ∀ r, res = .singleSeg r → r.1 ≤ r.2 ∧ r.2 ≤ packet.length
  trySingleSeg : ∃ res j, (trySingleSeg packet idx flags : Outcome Empty _) = .ok (res, j) ∧
    ∀ r, res = .ok r → r.1 ≤ r.2 ∧ r.2 ≤ packet.length

/-- A segment with data has it behind its length field, and only the first byte of a message comes without the length of
the message. An empty one does not start with a word of the bitmap. -/
def Contained (packet : Bytes) (idx : ℕ) (flags : SegFlags) : Prop :=
  ∀ off segLen messageLen j, (readHeader packet idx flags : Outcome Empty _) = .ok (some (off, segLen, messageLen), j) →
    if segLen = 0 then messageLen = some 0 ∨ off % 64 ≠ 0 ∧ (messageLen = none → off < 64)
    else j + segLen ≤ packet.length ∧ (messageLen = none → off = 0 ∧ segLen = 1)

section Header

lemma readField_bounds (has : Bool) (h : idx ≤ packet.length) :
    ∃ o j, (readField has packet idx : Outcome ε _) = .ok (o, j) ∧ idx ≤ j ∧ j ≤ packet.length := by
  unfold readField
  split
  · obtain ⟨v, j, hread, hcases⟩ := tryRead_cases (ε := ε) (2 ^ 64 - 1) packet idx
    refine ⟨v.map some, j, ?_, ?_⟩
    · rw [varusizeTryRead, hread, ok_bind]
    · obtain ⟨-, rfl⟩ | hlt := hcases <;> omega
  · exact ⟨some none, idx, rfl, le_rfl, h⟩

lemma readSegLen_bounds (isTerminator : Bool) (h : idx ≤ packet.length) :
    ∃ o j, (readSegLen isTerminator packet idx : Outcome ε _) = .ok (o, j) ∧ idx ≤ j ∧ j ≤ packet.length := by
  unfold readSegLen
  rw [sub_ok h, ok_bind]
  split
  · exact ⟨_, idx, rfl, le_rfl, h⟩
  · obtain ⟨v, j, hread, hcases⟩ := tryRead_cases (ε := ε) (2 ^ 64 - 1) packet idx
    refine ⟨v.filter (· ≤ packet.length - idx), j, ?_, ?_⟩
    · rw [varusizeTryRead, hread, ok_bind]
    · obtain ⟨-, rfl⟩ | hlt := hcases <;> omega

lemma readHeader_bounds (flags : SegFlags) (h : idx ≤ packet.length) :
    ∃ header j, (readHeader packet idx flags : Outcome ε _) = .ok (header, j) ∧ j ≤ packet.length := by
  obtain ⟨ml, i₁, hlen, -, h₁⟩ := readField_bounds (ε := ε) flags.hasLen h
  obtain ⟨o, i₂, hoff, -, h₂⟩ := readField_bounds (ε := ε) flags.hasOff h₁
  obtain ⟨sl, i₃, hseg, -, h₃⟩ := readSegLen_bounds (ε := ε) flags.isTerminator h₂
  rw [readHeader, hlen, ok_bind]
  cases ml with
  | none => exact ⟨none, i₁, rfl, h₁⟩
  | some ml =>
    dsimp only
    rw [hoff, ok_bind]
    cases o with
    | none => exact ⟨none, i₂, rfl, h₂⟩
    | some o =>
      dsimp only
      rw [hseg, ok_bind]
      cases sl with
      | none => exact ⟨none, i₃, rfl, h₃⟩
      | some sl =>
        dsimp only
        split
        · exact ⟨none, i₃, rfl, h₃⟩
        · exact ⟨_, i₃, rfl, h₃⟩

end Header

section Scan

variable {setSegs segs' : List (BitVec 64)} {start start' : Option ℕ} {vs : List (ℕ × BitVec 64)}

lemma checkAndSetBits_inside {k : ℕ} {segBits : BitVec 64}
    (h : (checkAndSetBits setSegs k segBits start : Outcome ε _) = .ok (segs', calls, start')) :
    k < setSegs.length ∧ segs'.length = setSegs.length := by
  obtain ⟨preBits, hword, h⟩ := bind_eq_ok.mp h
  obtain ⟨⟨calls₁, start₁⟩, -, h⟩ := bind_eq_ok.mp h
  simp only [ok_inj, Prod.mk.injEq] at h
  obtain ⟨rfl, -, -⟩ := h
  refine ⟨?_, List.length_set ..⟩
  by_contra hk
  rw [wordAt, List.getElem?_eq_none (by omega)] at hword
  exact panic_ne_ok _ _ hword

lemma checkEach_inside (h : (checkEach setSegs start vs : Outcome ε _) = .ok (segs', calls, start')) :
    ∀ v ∈ vs, v.1 < setSegs.length := by
  induction vs generalizing setSegs start calls with
  | nil => simp
  | cons v vs ih =>
    obtain ⟨⟨segs₁, calls₁, start₁⟩, hcheck, h⟩ := bind_eq_ok.mp h
    obtain ⟨⟨segs₂, calls₂, start₂⟩, hrest, h⟩ := bind_eq_ok.mp h
    simp only [ok_inj, Prod.mk.injEq] at h
    obtain ⟨rfl, -, rfl⟩ := h
    obtain ⟨hk, hlen⟩ := checkAndSetBits_inside hcheck
    rw [List.forall_mem_cons]
    refine ⟨hk, fun w hw => ?_⟩
    rw [← hlen]
    exact ih hrest w hw

lemma visits_ends {last : ℕ} (h : (visits off last : Outcome ε _) = .ok vs) :
    (∃ bits, (off / 64, bits) ∈ vs) ∧ ∃ bits, (last / 64, bits) ∈ vs := by
  unfold visits at h
  dsimp only at h
  split at h
  · rename_i he
    rw [ok_inj] at h
    rw [← h, ← he]
    exact ⟨⟨_, List.mem_singleton_self _⟩, ⟨_, List.mem_singleton_self _⟩⟩
  · obtain ⟨stop, -, h⟩ := bind_eq_ok.mp h
    rw [ok_inj] at h
    rw [← h]
    exact ⟨⟨_, List.mem_cons_self⟩, ⟨_, List.mem_cons_of_mem _ (List.mem_append_right _ (List.mem_singleton_self _))⟩⟩

lemma runOverUnsetRanges_inside {stop : ℕ} (h : (runOverUnsetRanges setSegs off stop : Outcome ε _) = .ok (segs', calls)) :
    0 < stop ∧ off / 64 < setSegs.length ∧ (stop - 1) / 64 < setSegs.length ∧ ((stop - 1) / 64 = 0 → off / 64 = 0) := by
  obtain ⟨last, hlast, h⟩ := bind_eq_ok.mp h
  obtain ⟨vs, hvs, h⟩ := bind_eq_ok.mp h
  obtain ⟨⟨segs₁, calls₁, start₁⟩, heach, -⟩ := bind_eq_ok.mp h
  obtain ⟨hpos, rfl⟩ := sub_eq_ok.mp hlast
  have hin := checkEach_inside heach
  obtain ⟨⟨b₁, h₁⟩, ⟨b₂, h₂⟩⟩ := visits_ends hvs
  refine ⟨hpos, hin _ h₁, hin _ h₂, fun h0 => ?_⟩
  by_contra hne
  -- The end of the loop over the words in between is computed by a subtraction.
  rw [visits, if_neg (fun he => hne (he.trans h0)), h0] at hvs
  obtain ⟨s, hs, -⟩ := bind_eq_ok.mp hvs
  exact absurd (sub_eq_ok.mp hs).1 (by decide)

lemma runOverUnsetRanges_zero (hoff : off % 64 ≠ 0) (hw : off / 64 < setSegs.length) :
    ∃ segs', (runOverUnsetRanges setSegs off off : Outcome ε _) = .ok (segs', []) := by
  have hlast : (off - 1) / 64 = off / 64 := by omega
  have h0 : newBits setSegs (off / 64) (segBitsAt off (off - 1) (off / 64)) = 0#64 := by
    apply BitVec.eq_of_getLsbD_eq
    intro t ht
    rw [getLsbD_newBits _ _ _ ht, getLsbD_segBitsAt ht le_rfl (by omega), decide_eq_false (by omega), Bool.and_false,
      BitVec.getLsbD_zero]
  obtain ⟨calls, start, hcheck, hdone⟩ := checkAndSetBits_spec (ε := ε) hw (segBitsAt off (off - 1) (off / 64)) none (by simp)
  obtain ⟨rfl, rfl⟩ := hdone.skip h0
  refine ⟨setSegs.set (off / 64) (setSegs.getD (off / 64) 0 ||| segBitsAt off (off - 1) (off / 64)), ?_⟩
  simp only [runOverUnsetRanges, sub_ok (show 1 ≤ off by omega), visits_eq hlast.ge, wordsOf, if_pos hlast.symm, List.map_cons,
    List.map_nil, checkEach, hcheck, ok_bind, List.append_nil, flush, Option.map_none, Option.toList_none]

end Scan

section Receive

lemma copyRange_inv {r : ℕ × ℕ} {s : Option Bytes × ℕ} {k : ℕ}
    (h : (copyRange packet j off (some m, k) r : Outcome ε _) = .ok s) :
    (r.1 ≤ r.2 ∧ r.2 ≤ m.length) ∧ ∃ m' k', s = (some m', k') ∧ m'.length = m.length := by
  rw [copyRange, unwrap_some, ok_bind] at h
  obtain ⟨a, -, h⟩ := bind_eq_ok.mp h
  obtain ⟨b, -, h⟩ := bind_eq_ok.mp h
  obtain ⟨src, -, h⟩ := bind_eq_ok.mp h
  obtain ⟨m', hwrite, h⟩ := bind_eq_ok.mp h
  obtain ⟨k', -, h⟩ := bind_eq_ok.mp h
  obtain ⟨part, hslice, hpart⟩ := bind_eq_ok.mp hwrite
  obtain ⟨hle, hlen, rfl⟩ := slice_eq_ok.mp hslice
  obtain ⟨part', hcopy, hm'⟩ := bind_eq_ok.mp hpart
  rw [copyFromSlice] at hcopy
  split at hcopy
  · rename_i hsame
    rw [ok_inj] at h hcopy hm'
    refine ⟨⟨hle, hlen⟩, m', k + k', h.symm, ?_⟩
    rw [← hm', ← hcopy, List.length_append, List.length_append, ← hsame, List.length_drop, List.length_take, List.length_take,
      List.length_drop]
    omega
  · exact absurd hcopy (panic_ne_ok _ _)

lemma foldlM_copyRange_inv {s : Option Bytes × ℕ} {k : ℕ}
    (h : (calls.foldlM (copyRange packet j off) (some m, k) : Outcome ε _) = .ok s) :
    ∀ r ∈ calls, r.1 ≤ r.2 ∧ r.2 ≤ m.length := by
  induction calls generalizing m k with
  | nil => simp
  | cons r rs ih =>
    rw [List.foldlM_cons] at h
    obtain ⟨s', hcopy, h⟩ := bind_eq_ok.mp h
    obtain ⟨hr, m', k', rfl, hlen⟩ := copyRange_inv hcopy
    rw [List.forall_mem_cons]
    refine ⟨hr, ?_⟩
    rw [← hlen]
    exact ih h

lemma recvInner_inside {r : Option Bytes × Desegmenter × ℕ} (hmem : d.mem = some m)
    (h : (recvInner d packet j off segLen : Outcome ε _) = .ok r) :
    ∃ segs' calls, (runOverUnsetRanges d.setSegs off (off + segLen) : Outcome ε _) = .ok (segs', calls) ∧
      ∀ r ∈ calls, r.1 ≤ r.2 ∧ r.2 ≤ m.length := by
  obtain ⟨stop, hstop, h⟩ := bind_eq_ok.mp h
  obtain rfl := eq_of_add_eq_ok hstop
  obtain ⟨⟨segs', calls⟩, hrun, h⟩ := bind_eq_ok.mp h
  obtain ⟨⟨mem, k⟩, hfold, -⟩ := bind_eq_ok.mp h
  rw [hmem] at hfold
  exact ⟨segs', calls, hrun, foldlM_copyRange_inv hfold⟩

lemma Sized.recvInner_zero (hs : d.Sized) (hoff : off % 64 ≠ 0) (hw : off / 64 < d.setSegs.length) (ho : off < 2 ^ 64) :
    ∃ r, (recvInner d packet j off 0 : Outcome ε _) = .ok r := by
  obtain ⟨segs', hrun⟩ := runOverUnsetRanges_zero (ε := ε) hoff hw
  have ht : d.totalSet < 2 ^ 64 := by
    have := hs.total
    omega
  have h : (recvInner d packet j off (off - off) : Outcome ε _) = _ := recvInner_nil le_rfl ho ht hrun
  rw [Nat.sub_self] at h
  exact ⟨_, h⟩

lemma Sized.recvInner_pos (hs : d.Sized) (hpos : 0 < segLen) (hd : off + segLen ≤ d.len) (hp : j + segLen ≤ packet.length) :
    ∃ r, (recvInner d packet j off segLen : Outcome ε _) = .ok r := by
  obtain ⟨m, hmem, hm⟩ := hs.mem
  have hwords := hs.words
  have htotal := hs.total
  have hlt : off < off + segLen := by omega
  have hbits : off + segLen ≤ d.setSegs.length * 64 := by omega
  have hdata : j + (off + segLen - off) ≤ packet.length := by omega
  obtain ⟨segs', calls, hrun, hr, hsorted, hcover, -, -⟩ := runOverUnsetRanges_spec (ε := ε) hlt hbits
  have hlen : (cover calls).length ≤ segLen := by
    have hsub : cover calls ⊆ List.range' off segLen := fun p hp => by
      have := hcover p hp
      rw [List.mem_range'_1]
      exact this
    have hle := (List.subperm_of_subset (hsorted.imp fun h => h.ne) hsub).length_le
    rwa [List.length_range'] at hle
  obtain ⟨m', hfold, -, -⟩ := foldlM_copyRange (ε := ε) (fun r h => ⟨(hr r h).1, (hr r h).2.1.le, (hr r h).2.2⟩)
    (show off + segLen ≤ m.length by omega) hdata 0
  simp only [recvInner, add_ok (show off + segLen < 2 ^ 64 by omega), hrun, ok_bind, hmem, hfold, Nat.zero_add]
  split
  · rw [add_ok (by omega), ok_bind]
    split
    · exact ⟨_, rfl⟩
    · exact ⟨_, rfl⟩
  · exact ⟨_, rfl⟩

lemma sized_empty {mem : Bytes} (hmem : mem.length = n) (hpos : 0 < n) (hn : n < 2 ^ 64) : (empty mem n).Sized where
  pos := hpos
  mem := ⟨mem, rfl, hmem⟩
  words := by rw [empty, List.length_replicate, hmem]
  total := by
    rw [empty, Nat.zero_add]
    exact hn

end Receive

section WordStart

/-- A message of `n` bytes that has one byte in word `k` and one in the word before it, the first of each. -/
def twoBytes (n k : ℕ) : Desegmenter :=
  ⟨some (List.replicate n 0), n, 0, ((List.replicate ((n + 63) / 64) 0).set k 1).set (k - 1) 1, []⟩

end WordStart

section Main

lemma InBounds.scans (h : InBounds packet idx flags)
    (hheader : (readHeader packet idx flags : Outcome Empty _) = .ok (some (off, segLen, messageLen), j)) (hs : d.Sized)
    (hd : ∀ n ∈ messageLen, n = d.len) :
    ∃ segs' calls, (runOverUnsetRanges d.setSegs off (off + segLen) : Outcome Empty _) = .ok (segs', calls) ∧
      ∀ r ∈ calls, r.1 ≤ r.2 ∧ r.2 ≤ d.len := by
  obtain ⟨m, hmem, hm⟩ := hs.mem
  have hret := h.recv d hs
  rw [Desegmenter.recv, hheader, ok_bind] at hret
  dsimp only at hret
  rw [if_neg (by push Not; exact hd)] at hret
  have hinner := (returns_bind.mp hret).1
  rw [← hm]
  cases hres : (recvInner d packet j off segLen : Outcome Empty _) with
  | ok r => exact recvInner_inside hmem hres
  | error e =>
    rw [hres] at hinner
    cases e with
    | panic p => exact absurd hinner (not_returns_panic p)
    | err e => exact e.elim

lemma InBounds.first (h : InBounds packet idx flags)
    (hheader : (readHeader packet idx flags : Outcome Empty _) = .ok (some (off, segLen, none), j)) :
    off < 64 ∧ (0 < segLen → off = 0 ∧ segLen = 1) := by
  have hs : (empty [0] 1).Sized := sized_empty rfl (by decide) (by decide)
  obtain ⟨segs', calls, hrun, hr⟩ := h.scans hheader hs (by simp)
  obtain ⟨-, hfirst, hlast, -⟩ := runOverUnsetRanges_inside hrun
  have hwords : (empty [0] 1).setSegs.length = 1 := rfl
  rw [hwords] at hfirst hlast
  refine ⟨by omega, fun hpos => ?_⟩
  have hlt : off < off + segLen := by omega
  have hcover := runOverUnsetRanges_cover hlt (by omega) (clean_empty [0] 1 off (off + segLen)).chained hrun
  have hmem : off + segLen - 1 ∈ cover calls := by
    rw [hcover, List.mem_filter, List.mem_range'_1]
    refine ⟨by omega, ?_⟩
    simp [unset, marked_empty]
  obtain ⟨r, hrmem, -, hlt'⟩ := mem_cover.mp hmem
  have hle : r.2 ≤ 1 := (hr r hrmem).2
  omega

lemma Contained.recvInner (h : Contained packet idx flags)
    (hheader : (readHeader packet idx flags : Outcome Empty _) = .ok (some (off, segLen, messageLen), j)) (hs : d.Sized)
    (hd : ∀ n ∈ messageLen, n = d.len) : ∃ r, (recvInner d packet j off segLen : Outcome Empty _) = .ok r := by
  obtain ⟨hsum, hlen, -, -⟩ := readHeader_inv hheader
  have hc := h off segLen messageLen j hheader
  have hwords := hs.words
  have hpos := hs.pos
  split at hc
  · rename_i h0
    subst h0
    obtain rfl | ⟨hoff, hfirst⟩ := hc
    · have := hd 0 rfl
      omega
    · apply hs.recvInner_zero hoff
      · cases messageLen with
        | none =>
          have := hfirst rfl
          omega
        | some n =>
          have hle := (hlen n rfl).1
          have heq := hd n rfl
          omega
      · omega
  · rename_i hne
    refine hs.recvInner_pos (Nat.pos_of_ne_zero hne) ?_ hc.1
    cases messageLen with
    | none =>
      have := hc.2 rfl
      omega
    | some n =>
      have hle := (hlen n rfl).1
      rwa [hd n rfl] at hle

lemma Contained.recv (h : Contained packet idx flags) (hi : idx ≤ packet.length) (hs : d.Sized) :
    Returns (recv d packet idx flags : Outcome Empty _) := by
  obtain ⟨header, j, hheader, -⟩ := readHeader_bounds (ε := Empty) flags hi
  rw [Desegmenter.recv, hheader, ok_bind]
  cases header with
  | none => exact returns_ok _
  | some header =>
    obtain ⟨off, segLen, messageLen⟩ := header
    dsimp only
    split
    · exact returns_ok _
    · rename_i hd
      push Not at hd
      obtain ⟨⟨message, d', j'⟩, hinner⟩ := h.recvInner hheader hs hd
      rw [hinner, ok_bind]
      cases message with
      | none => exact returns_ok _
      | some m => exact returns_ok _

lemma Contained.le_length (h : Contained packet idx flags) (hj : j ≤ packet.length)
    (hheader : (readHeader packet idx flags : Outcome Empty _) = .ok (some (off, segLen, messageLen), j)) :
    j + segLen ≤ packet.length := by
  have hc := h off segLen messageLen j hheader
  split at hc
  · omega
  · exact hc.1

lemma Contained.tryNew {malloc : ℕ → Option Bytes} (h : Contained packet idx flags) (hi : idx ≤ packet.length)
    (hmalloc : ∀ n, ∀ mem ∈ malloc n, mem.length = n) :
    ∃ res j, (tryNew (fun n => .ok (malloc n)) packet idx flags : Outcome Empty _) = .ok (res, j) ∧
      ∀ r, res = .singleSeg r → r.1 ≤ r.2 ∧ r.2 ≤ packet.length := by
  obtain ⟨header, j, hheader, hj⟩ := readHeader_bounds (ε := Empty) flags hi
  rw [Desegmenter.tryNew, hheader, ok_bind]
  cases header with
  | none => exact ⟨.invalid, j, rfl, by simp⟩
  | some header =>
    obtain ⟨off, segLen, messageLen⟩ := header
    cases messageLen with
    | none => exact ⟨.missingLen, j, rfl, by simp⟩
    | some n =>
      dsimp only
      split
      · refine ⟨_, _, rfl, fun r hr => ?_⟩
        obtain rfl := NewResult.singleSeg.inj hr
        exact ⟨Nat.le_add_right j segLen, h.le_length hj hheader⟩
      · rename_i hne
        rw [ok_bind]
        cases hmem : malloc n with
        | none => exact ⟨.allocFailure, j, rfl, by simp⟩
        | some mem =>
          have hlen := (readHeader_inv hheader).2.1 n rfl
          have hs := sized_empty (hmalloc n mem hmem) (by omega) (by omega)
          obtain ⟨⟨message, d', j'⟩, hinner⟩ := h.recvInner hheader hs (fun n' hn' => (Option.some.inj hn').symm)
          dsimp only
          rw [hinner, ok_bind]
          exact ⟨.segmented d', j', rfl, by simp⟩

lemma Contained.trySingleSeg (h : Contained packet idx flags) (hi : idx ≤ packet.length) :
    ∃ res j, (trySingleSeg packet idx flags : Outcome Empty _) = .ok (res, j) ∧
      ∀ r, res = .ok r → r.1 ≤ r.2 ∧ r.2 ≤ packet.length := by
  obtain ⟨header, j, hheader, hj⟩ := readHeader_bounds (ε := Empty) flags hi
  rw [Desegmenter.trySingleSeg, hheader, ok_bind]
  cases header with
  | none => exact ⟨.error .invalid, j, rfl, by simp⟩
  | some header =>
    obtain ⟨off, segLen, messageLen⟩ := header
    dsimp only
    split
    · refine ⟨_, _, rfl, fun r hr => ?_⟩
      obtain rfl := Except.ok.inj hr
      exact ⟨Nat.le_add_right j segLen, h.le_length hj hheader⟩
    · exact ⟨.error .segmented, j, rfl, by simp⟩

end Main

end Pqsnet.Session.Desegmenter
