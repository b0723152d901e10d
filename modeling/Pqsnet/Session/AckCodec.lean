import Pqsnet.Session.AckFrames

/-! The encoder writes frames that stand for a front part of its list. -/

namespace Pqsnet.Session.AckRuns

open Checked Outcome Run

variable {ε : Type}

/-- One frame under way: `first` is the ack at index `start`, and `head` is the buffer up to the runs. -/
structure Job where
  acks : List UInt32
  start : ℕ
  first : UInt32
  head : Bytes
  maxLen : ℕ
  capacity : ℕ
  sorted : acks.Pairwise (· < ·)
  small : acks.length < 2 ^ 29
  le_capacity : maxLen ≤ capacity

/-- The runs `rs` are in the buffer. Up to index `i` the acks of the frame are those of `rs`, and then
`pending` more in a row that are not written yet. -/
structure Written (w : Job) (rs : List Run) (pending i : ℕ) (buf : Buf) : Prop where
  le_length : i ≤ w.acks.length
  taken : w.acks.take i = w.acks.take w.start ++ ((w.first.toNat :: acksFrom w.first.toNat rs) ++
    List.range' (nextFrom w.first.toNat rs + 1) pending).map UInt32.ofNat
  bytes : buf.bytes = w.head ++ payload rs
  fits : buf.len ≤ w.maxLen
  peak : buf.peak ≤ w.capacity
  short : ∀ r ∈ rs, r.code ≤ varintU32Max

/-- The head of the loop over the runs: the ack before index `i` is the last pending number. -/
structure AtHead (w : Job) (rs : List Run) (pending i : ℕ) (buf : Buf) : Prop extends
    Written w rs pending i buf where
  last : ∃ a, w.acks[i - 1]? = some a ∧ a.toNat = nextFrom w.first.toNat rs + pending

variable {w : Job} {rs : List Run} {k i : ℕ} {buf : Buf} {a : UInt32}

lemma take_succ_of_getElem? {acks : List UInt32} (h : acks[i]? = some a) : acks.take (i + 1) = acks.take i ++ [a] := by
  rw [List.take_add_one, h]
  rfl

lemma Buf.extend_len (b : Buf) (x : Bytes) : (b.extend x).len = b.len + x.length := by
  simp [extend, len]

namespace Written

lemma pending_lt (h : Written w rs k i buf) : k < i := by
  have hl := congrArg List.length h.taken
  have hi := h.le_length
  simp only [List.length_take, List.length_append, List.length_map, List.length_cons, List.length_range'] at hl
  omega

lemma rollback (h : Written w rs k i buf) : Written w rs 0 (i - k) buf := by
  refine ⟨by have := h.le_length; omega, ?_, h.bytes, h.fits, h.peak, h.short⟩
  have ht := h.taken
  rw [List.map_append, ← List.append_assoc] at ht
  have hl := congrArg List.length ht
  rw [List.length_take, min_eq_left h.le_length, List.length_append] at hl
  have hk : ((List.range' (nextFrom w.first.toNat rs + 1) k).map UInt32.ofNat).length = k := by simp
  calc w.acks.take (i - k) = (w.acks.take i).take (i - k) := by
        rw [List.take_take, min_eq_left (Nat.sub_le i k)]
    _ = _ := by
        rw [ht, List.take_left' (by omega)]
        simp

lemma consecutive (h : Written w rs k i buf) (ha : w.acks[i]? = some a)
    (hn : a.toNat = nextFrom w.first.toNat rs + (k + 1)) : Written w rs (k + 1) (i + 1) buf := by
  refine ⟨(List.getElem?_eq_some_iff.mp ha).1, ?_, h.bytes, h.fits, h.peak, h.short⟩
  have hr : UInt32.ofNat (nextFrom w.first.toNat rs + 1 + k) = a := by
    rw [← UInt32.ofNat_toNat (x := a), hn]
    congr 1
    omega
  rw [take_succ_of_getElem? ha, h.taken, List.range'_1_concat]
  simp [hr]

lemma extend_fits (h : Written w rs k i buf) {n : ℕ} (hf : buf.len + varusizeLen n ≤ w.maxLen) :
    (buf.extend (varusizeWrite n)).len ≤ w.maxLen ∧ (buf.extend (varusizeWrite n)).peak ≤ w.capacity := by
  have hl := Buf.extend_len buf (varusizeWrite n)
  rw [varusizeWrite_length] at hl
  have hc := w.le_capacity
  have hp := h.peak
  refine ⟨by omega, max_le hp ?_⟩
  change (buf.extend (varusizeWrite n)).len ≤ w.capacity
  omega

lemma concat (h : Written w rs k i buf) {r : Run} {j : ℕ} (hf : buf.len + varusizeLen r.code ≤ w.maxLen)
    (hc : r.code ≤ varintU32Max) (hj : j ≤ w.acks.length)
    (ht : w.acks.take j = w.acks.take w.start ++ (w.first.toNat :: acksFrom w.first.toNat (rs ++ [r])).map UInt32.ofNat) :
    Written w (rs ++ [r]) 0 j (buf.extend (varusizeWrite r.code)) := by
  obtain ⟨hl, hp⟩ := h.extend_fits hf
  refine ⟨hj, by simpa using ht, ?_, hl, hp, ?_⟩
  · rw [payload_concat, ← List.append_assoc, ← h.bytes]
    rfl
  · intro s hs
    rcases List.mem_append.mp hs with hs | hs
    · exact h.short s hs
    · rw [List.mem_singleton.mp hs]
      exact hc

lemma set (h : Written w rs (k + 1) i buf) (hf : buf.len + varusizeLen (Run.set k).code ≤ w.maxLen)
    (hc : (Run.set k).code ≤ varintU32Max) :
    Written w (rs ++ [.set k]) 0 i (buf.extend (varusizeWrite (Run.set k).code)) := by
  apply h.concat hf hc h.le_length
  rw [h.taken, acksFrom_concat]
  rfl

lemma unset (h : Written w rs 0 i buf) {n : ℕ} (ha : w.acks[i]? = some a)
    (hn : a.toNat = nextFrom w.first.toNat rs + n + 2) (hf : buf.len + varusizeLen (Run.unset n).code ≤ w.maxLen)
    (hc : (Run.unset n).code ≤ varintU32Max) :
    Written w (rs ++ [.unset n]) 0 (i + 1) (buf.extend (varusizeWrite (Run.unset n).code)) := by
  apply h.concat hf hc (List.getElem?_eq_some_iff.mp ha).1
  have hr : UInt32.ofNat (nextFrom w.first.toNat rs + n + 2) = a := by rw [← hn, UInt32.ofNat_toNat]
  rw [take_succ_of_getElem? ha, h.taken, acksFrom_concat]
  simp [Run.acks, hr]

end Written

/-! The codes of runs, as the encoder computes them on machine words. -/

lemma toNat_shiftLeft_one {x : UInt32} (h : x.toNat < 2 ^ 31) : (x <<< 1).toNat = 2 * x.toNat := by
  rw [UInt32.toNat_shiftLeft]
  simp only [UInt32.reduceToNat, Nat.reduceMod, Nat.shiftLeft_eq]
  omega

lemma setRunCode_toNat {x : UInt32} (hx : x.toNat = k + 1) (hk : k < 2 ^ 29) :
    (setRunCode x).toNat = (Run.set k).code := by
  have h1 : (x - 1).toNat = k := by
    rw [UInt32.toNat_sub_of_le _ _ (UInt32.le_iff_toNat_le.mpr (by simp [hx])), hx]
    simp
  have h2 := toNat_shiftLeft_one (x := x - 1) (by omega)
  have h3 := Nat.two_pow_add_eq_or_of_lt (i := 1) (b := 1) (by omega) k
  rw [setRunCode, UInt32.toNat_or, h2, h1, code]
  simpa using h3.symm

lemma set_code_le (hk : k < 2 ^ 29) : (Run.set k).code ≤ varintU32Max := by
  simp only [code, varintU32Max]
  omega

/-- What the loop body leaves: another round at the next index, or the end of the frame. -/
def Stepped (w : Job) (i : ℕ) : Flow × Cursor → Prop
  | (.next, c) => c.i = i + 1 ∧ ∃ rs, AtHead w rs c.curSetRunLen.toNat c.i c.buf
  | (.stop, c) => ∃ rs, Written w rs c.curSetRunLen.toNat c.i c.buf

lemma writeUnsetRun_spec {diff : UInt32} (h : Written w rs 0 i buf) (ha : w.acks[i]? = some a)
    (hd : 2 ≤ diff.toNat) (hn : a.toNat = nextFrom w.first.toNat rs + diff.toNat) :
    ∃ r, (writeUnsetRun w.maxLen (i + 1) buf diff : Outcome ε _) = .ok r ∧ Stepped w i r := by
  have hlen : (diff - 2).toNat = diff.toNat - 2 :=
    UInt32.toNat_sub_of_le _ _ (UInt32.le_iff_toNat_le.mpr hd)
  have hstop : Stepped w i (.stop, ⟨i, buf, 0⟩) := ⟨rs, h⟩
  simp only [writeUnsetRun, sub_ok (Nat.le_add_left 1 i), ok_bind, Nat.add_sub_cancel]
  split
  · exact ⟨_, rfl, hstop⟩
  rename_i hbig
  have hmax : diff.toNat - 2 < 2 ^ 29 := by
    simp only [varintU32Max, hlen] at hbig
    omega
  have hcode : ((diff - 2) <<< 1).toNat = (Run.unset (diff.toNat - 2)).code := by
    rw [toNat_shiftLeft_one (by omega), hlen, code]
  have hle : (Run.unset (diff.toNat - 2)).code ≤ varintU32Max := by
    simp only [code, varintU32Max]
    omega
  simp only [varu32Len, varu32Write, hcode]
  split
  · exact ⟨_, rfl, hstop⟩
  rename_i hfull
  have hw := h.unset ha (by omega) (not_lt.mp hfull) hle
  refine ⟨_, rfl, ?_⟩
  split
  · exact ⟨_, hw⟩
  · refine ⟨rfl, _, hw, a, by simpa using ha, ?_⟩
    rw [nextFrom_concat, next]
    change a.toNat = _ + 0
    omega

lemma writeGap_spec {pend diff : UInt32} (h : Written w rs pend.toNat i buf) (ha : w.acks[i]? = some a)
    (hd : 2 ≤ diff.toNat) (hn : a.toNat = nextFrom w.first.toNat rs + pend.toNat + diff.toNat) :
    ∃ r, (writeGap w.maxLen (i + 1) buf pend diff : Outcome ε _) = .ok r ∧ Stepped w i r := by
  have hk := h.pending_lt
  have hs := w.small
  have hi := h.le_length
  have hdec : (diff - 1).toNat = diff.toNat - 1 :=
    UInt32.toNat_sub_of_le _ _ (UInt32.le_iff_toNat_le.mpr (by simp; omega))
  unfold writeGap
  split_ifs with hp
  · obtain ⟨k, hpk⟩ := Nat.exists_eq_add_one_of_ne_zero (Nat.pos_iff_ne_zero.mp (UInt32.lt_iff_toNat_lt.mp hp))
    have hcode := setRunCode_toNat hpk (by omega)
    simp only [varu32Len, varu32Write, hcode, hpk, sub_ok (Nat.le_add_left 1 i), ok_bind, Nat.add_sub_cancel]
    rw [hpk] at h hn hk
    have hback : i + 1 - (k + 1 + 1) = i - (k + 1) := by omega
    simp only [sub_ok (show k + 1 + 1 ≤ i + 1 by omega), ok_bind, hback]
    split_ifs with hfull hend hone
    · exact ⟨_, rfl, rs, h.rollback⟩
    · exact ⟨_, rfl, _, h.set (not_lt.mp hfull) (set_code_le (by omega))⟩
    · have hw := h.set (not_lt.mp hfull) (set_code_le (by omega))
      have hone' := UInt32.le_iff_toNat_le.mp hone
      rw [hdec] at hone'
      have ha' : a.toNat = nextFrom w.first.toNat (rs ++ [.set k]) + (0 + 1) := by
        rw [nextFrom_concat, next, hn]
        change diff.toNat - 1 ≤ 1 at hone'
        omega
      exact ⟨_, rfl, rfl, _, hw.consecutive ha ha', a, by simpa using ha, ha'⟩
    · have hw := h.set (not_lt.mp hfull) (set_code_le (by omega))
      have hone' := mt UInt32.le_iff_toNat_le.mpr hone
      rw [hdec] at hone'
      change ¬ diff.toNat - 1 ≤ 1 at hone'
      apply writeUnsetRun_spec hw ha
      · omega
      · rw [nextFrom_concat, next, hdec, hn]
        omega
  · have h0 : pend.toNat = 0 := by
      have hp' := mt UInt32.lt_iff_toNat_lt.mpr hp
      change ¬ 0 < pend.toNat at hp'
      omega
    rw [h0] at h hn
    exact writeUnsetRun_spec h ha hd hn

lemma encodeStep_spec {c : Cursor} (h : AtHead w rs c.curSetRunLen.toNat c.i c.buf)
    (hi : c.i < w.acks.length) :
    ∃ r, (encodeStep w.acks w.maxLen c : Outcome ε _) = .ok r ∧ Stepped w c.i r := by
  obtain ⟨b, hb, hlast⟩ := h.last
  obtain ⟨a, ha⟩ : ∃ a, w.acks[c.i]? = some a := ⟨_, List.getElem?_eq_getElem hi⟩
  have hpos := h.pending_lt
  have hlt : b.toNat < a.toNat := by
    obtain ⟨hj, rfl⟩ := List.getElem?_eq_some_iff.mp hb
    obtain ⟨hi, rfl⟩ := List.getElem?_eq_some_iff.mp ha
    exact UInt32.lt_iff_toNat_lt.mp (List.pairwise_iff_getElem.mp w.sorted _ _ hj hi (by omega))
  have hdiff : (a - b).toNat = a.toNat - b.toNat :=
    UInt32.toNat_sub_of_le _ _ (UInt32.le_iff_toNat_le.mpr hlt.le)
  simp only [encodeStep, ackAt, ha, hb, sub_ok (show 1 ≤ c.i by omega), ok_bind]
  split
  · rename_i hone
    have hone' := UInt32.le_iff_toNat_le.mp hone
    change (a - b).toNat ≤ 1 at hone'
    have hk : (c.curSetRunLen + 1).toNat = c.curSetRunLen.toNat + 1 := by
      have hs := w.small
      rw [UInt32.toNat_add]
      change (c.curSetRunLen.toNat + 1) % 2 ^ 32 = _
      omega
    have ha' : a.toNat = nextFrom w.first.toNat rs + (c.curSetRunLen.toNat + 1) := by omega
    refine ⟨_, rfl, rfl, rs, ?_⟩
    rw [hk]
    exact ⟨h.toWritten.consecutive ha ha', a, by simpa using ha, ha'⟩
  · rename_i hone
    have hone' := mt UInt32.le_iff_toNat_le.mpr hone
    change ¬ (a - b).toNat ≤ 1 at hone'
    exact writeGap_spec h.toWritten ha (by omega) (by omega)

lemma encodeRuns_spec {n : ℕ} {c : Cursor} (h : AtHead w rs c.curSetRunLen.toNat c.i c.buf)
    (hf : w.acks.length - c.i < n) :
    ∃ c' rs', (encodeRuns w.acks w.maxLen n c : Outcome ε _) = .ok c' ∧
      Written w rs' c'.curSetRunLen.toNat c'.i c'.buf := by
  induction n generalizing c rs with
  | zero => omega
  | succ n ih =>
    by_cases hi : c.i < w.acks.length
    · obtain ⟨⟨flow, c'⟩, hstep, hs⟩ := encodeStep_spec (ε := ε) h hi
      simp only [encodeRuns, if_pos hi, hstep, ok_bind]
      cases flow with
      | next =>
        obtain ⟨hc, rs', hh⟩ := hs
        exact ih hh (by omega)
      | stop =>
        obtain ⟨rs', hw⟩ := hs
        exact ⟨c', rs', rfl, hw⟩
    · exact ⟨c, rs, by simp only [encodeRuns, if_neg hi], h.toWritten⟩

lemma closeRun_spec {c : Cursor} (h : Written w rs c.curSetRunLen.toNat c.i c.buf) :
    ∃ i' buf' rs', (closeRun w.maxLen c : Outcome ε _) = .ok (i', buf') ∧ Written w rs' 0 i' buf' := by
  have hk := h.pending_lt
  have hs := w.small
  have hi := h.le_length
  unfold closeRun
  split
  · rename_i hp
    obtain ⟨k, hpk⟩ := Nat.exists_eq_add_one_of_ne_zero (Nat.pos_iff_ne_zero.mp (UInt32.lt_iff_toNat_lt.mp hp))
    have hcode := setRunCode_toNat hpk (by omega)
    rw [hpk] at h hk
    simp only [varu32Len, varu32Write, hcode, hpk, sub_ok hk.le, ok_bind]
    split
    · exact ⟨_, _, rs, rfl, h.rollback⟩
    · rename_i hfull
      exact ⟨_, _, _, rfl, h.set (not_lt.mp hfull) (set_code_le (by omega))⟩
  · rename_i hp
    have h0 : c.curSetRunLen.toNat = 0 := by
      have hp' := mt UInt32.lt_iff_toNat_lt.mpr hp
      change ¬ 0 < c.curSetRunLen.toNat at hp'
      omega
    rw [h0] at h
    exact ⟨_, _, rs, rfl, h⟩

/-- The buffer from the start of a frame to its runs, with the length byte still to be filled in. -/
def frameHead (b : Bytes) (first : UInt32) : Bytes := b ++ [variantAckRun] ++ toBe 4 first.toNat ++ [0]

lemma closeFrame_spec {b : Bytes} (d : Frame) (hb : buf.bytes = frameHead b d.first ++ payload d.runs) :
    (closeFrame b.length (b.length + 5) buf : Outcome ε _) = .ok ⟨b ++ d.bytes, buf.peak⟩ := by
  have hlen : buf.len = b.length + 6 + (payload d.runs).length := by
    simp only [Buf.len, hb, frameHead, List.length_append, List.length_singleton, toBe_length]
  have htotal : buf.len - (b.length + 5) = 1 + (payload d.runs).length := by omega
  simp only [closeFrame, sub_ok (show b.length + 5 ≤ buf.len by omega), ok_bind, htotal]
  by_cases hn : d.runs = []
  · have hp : (payload d.runs).length = 0 := by rw [hn]; rfl
    have hpop : buf.pop.bytes = b ++ (variantAckRun :: toBe 4 d.first.toNat) := by
      rw [Buf.pop, hb, hn, payload, List.flatMap_nil, List.append_nil, frameHead, List.dropLast_concat,
        List.append_assoc, List.singleton_append]
    rw [if_pos (by omega), Buf.set, if_pos (by simp [hpop]), hpop]
    simp [Frame.bytes, hn, Buf.pop]
  · have hp := payload_pos hn
    have hset : buf.bytes.set (b.length + 5) (UInt8.ofNat (1 + (payload d.runs).length - 2)) = b ++ d.bytes := by
      have hsplit : buf.bytes = (b ++ (variantAckRun :: toBe 4 d.first.toNat)) ++ (0 :: payload d.runs) := by
        simp [hb, frameHead]
      have hl : (b ++ (variantAckRun :: toBe 4 d.first.toNat)).length = b.length + 5 := by simp
      have hx : 1 + (payload d.runs).length - 2 = (payload d.runs).length - 1 := by omega
      rw [hsplit, List.set_append_right _ _ (by omega), hl, Nat.sub_self, hx]
      simp [Frame.bytes, hn]
    rw [if_neg (by omega), Buf.set, if_pos (by change b.length + 5 < buf.len; omega), hset]

lemma encodeFrame_spec {acks : List UInt32} {capacity : ℕ} (hs : acks.Pairwise (· < ·))
    (hl : acks.length < 2 ^ 29) (hp : buf.peak ≤ capacity) (ha : acks[i]? = some a)
    (hc : buf.len + 6 ≤ capacity) :
    ∃ (c : Cursor) (j : ℕ) (buf' : Buf) (d : Frame),
      (encodeRuns acks (min capacity (buf.len + 6 + 256)) (acks.length + 1)
        ⟨i + 1, ((buf.extend [variantAckRun]).extend (toBe 4 a.toNat)).extend [0], 0⟩ : Outcome ε _) = .ok c ∧
      (closeRun (min capacity (buf.len + 6 + 256)) c : Outcome ε _) = .ok (j, buf') ∧
      (closeFrame buf.len (buf.len + 5) buf' : Outcome ε _) = .ok ⟨buf.bytes ++ d.bytes, buf'.peak⟩ ∧
      buf'.peak ≤ capacity ∧ (buf.bytes ++ d.bytes).length ≤ capacity ∧ j ≤ acks.length ∧
      acks.take j = acks.take i ++ d.acks := by
  have hh : (frameHead buf.bytes a).length = buf.len + 6 := by
    simp [frameHead, Buf.len]
  let w : Job := ⟨acks, i, a, frameHead buf.bytes a, min capacity (buf.len + 6 + 256), capacity, hs, hl,
    min_le_left _ _⟩
  have hstart : AtHead w [] 0 (i + 1) (((buf.extend [variantAckRun]).extend (toBe 4 a.toNat)).extend [0]) := by
    refine ⟨⟨(List.getElem?_eq_some_iff.mp ha).1, ?_, ?_, ?_, ?_, by simp⟩, a, ha, rfl⟩
    · rw [take_succ_of_getElem? ha]
      simp [w, acksFrom]
    · simp [w, frameHead, Buf.extend, payload]
    · simp only [Buf.extend_len, List.length_singleton, toBe_length, w]
      omega
    · simp only [Buf.extend, List.length_append, List.length_singleton, toBe_length, w, Buf.len] at hc ⊢
      omega
  obtain ⟨c, rs, hruns, hw⟩ := encodeRuns_spec (ε := ε) (w := w) (n := acks.length + 1)
    (c := ⟨i + 1, _, 0⟩) hstart (by change acks.length - (i + 1) < _; omega)
  obtain ⟨j, buf', rs', hclose, hw'⟩ := closeRun_spec (ε := ε) hw
  have hfits := hw'.fits
  rw [Buf.len, hw'.bytes, List.length_append] at hfits
  change (frameHead buf.bytes a).length + _ ≤ min capacity (buf.len + 6 + 256) at hfits
  let d : Frame := ⟨a, rs', hw'.short, by omega⟩
  refine ⟨c, j, buf', d, hruns, hclose, closeFrame_spec d hw'.bytes, hw'.peak, ?_, hw'.le_length, ?_⟩
  · have hd : d.bytes.length ≤ 6 + (payload rs').length := by
      simp only [Frame.bytes, d]
      split <;> simp <;> omega
    rw [List.length_append]
    change buf.len + _ ≤ _
    omega
  · simpa [Frame.acks, d, w] using hw'.taken

lemma encodeFrames_spec {acks : List UInt32} {capacity n : ℕ} (hs : acks.Pairwise (· < ·))
    (hl : acks.length < 2 ^ 29) (hp : buf.peak ≤ capacity) (hc : buf.len ≤ capacity) (hi : i ≤ acks.length)
    (hf : acks.length - i < n) :
    ∃ (j : ℕ) (ds : List Frame) (peak : ℕ),
      (encodeFrames acks capacity n i buf : Outcome ε _) =
        .ok (j, ⟨buf.bytes ++ ds.flatMap Frame.bytes, peak⟩) ∧ peak ≤ capacity ∧
      (buf.bytes ++ ds.flatMap Frame.bytes).length ≤ capacity ∧ j ≤ acks.length ∧
      acks.take j = acks.take i ++ ds.flatMap Frame.acks ∧
      (j < acks.length → capacity < (buf.bytes ++ ds.flatMap Frame.bytes).length + 5) := by
  induction n generalizing i buf with
  | zero => omega
  | succ n ih =>
    by_cases hlt : i < acks.length
    swap
    · refine ⟨i, [], buf.peak, ?_, hp, by simpa [Buf.len] using hc, hi, by simp, fun h => absurd h hlt⟩
      simp [encodeFrames, hlt]
    by_cases h5 : buf.len + 5 > capacity
    · refine ⟨i, [], buf.peak, ?_, hp, by simpa [Buf.len] using hc, hi, by simp, fun _ => by simpa [Buf.len] using h5⟩
      simp [encodeFrames, hlt, h5]
    obtain ⟨a, ha⟩ : ∃ a, acks[i]? = some a := ⟨_, List.getElem?_eq_getElem hlt⟩
    by_cases h6 : buf.len + 5 + 1 > capacity
    · let d : Frame := ⟨a, [], by simp, by simp [payload]⟩
      have hbytes : d.bytes = variantAckSingle :: toBe 4 a.toNat := by simp [Frame.bytes, d]
      have hset : (((buf.extend [variantAckRun]).extend (toBe 4 a.toNat)).set buf.len variantAckSingle : Outcome ε _) =
          .ok ⟨buf.bytes ++ d.bytes, ((buf.extend [variantAckRun]).extend (toBe 4 a.toNat)).peak⟩ := by
        rw [hbytes]
        simp [Buf.set, Buf.extend, Buf.len]
      refine ⟨i + 1, [d], ((buf.extend [variantAckRun]).extend (toBe 4 a.toNat)).peak, ?_, ?_, ?_, hlt, ?_, ?_⟩
      · simp only [encodeFrames, if_pos hlt, if_neg h5, ackAt, ha, ok_bind, if_pos h6, hset, List.flatMap_cons,
          List.flatMap_nil, List.append_nil]
      · simp only [Buf.extend, Buf.len, List.length_append, List.length_singleton, toBe_length] at h5 ⊢
        omega
      · simp only [List.flatMap_cons, List.flatMap_nil, List.append_nil, hbytes, List.length_append,
          List.length_cons, toBe_length]
        simp only [Buf.len] at h5
        omega
      · rw [take_succ_of_getElem? ha]
        simp [Frame.acks, d, acksFrom]
      · intro _
        simp only [List.flatMap_cons, List.flatMap_nil, List.append_nil, hbytes, List.length_append,
          List.length_cons, toBe_length]
        simp only [Buf.len] at h6
        omega
    · obtain ⟨c, j, buf', d, hruns, hclose, hframe, hpeak, hlen, hj, htake⟩ :=
        encodeFrame_spec (ε := ε) hs hl hp ha (by omega)
      have hgrow := congrArg List.length htake
      rw [List.length_append, List.length_take, List.length_take, Frame.acks, List.length_map,
        List.length_cons] at hgrow
      obtain ⟨j', ds, peak, hrest, hpeak', hlen', hj', htake', hstop⟩ :=
        ih (i := j) (show Buf.peak ⟨buf.bytes ++ d.bytes, buf'.peak⟩ ≤ capacity from hpeak) hlen hj (by omega)
      have hl6 : ((((buf.extend [variantAckRun]).extend (toBe 4 a.toNat)).extend [0]).len) = buf.len + 6 := by
        simp only [Buf.extend_len, List.length_singleton, toBe_length]
      refine ⟨j', d :: ds, peak, ?_, hpeak', ?_, hj', ?_, ?_⟩
      · simp only [encodeFrames, if_pos hlt, if_neg h5, ackAt, ha, ok_bind, if_neg h6, hl6, hruns, hclose, hframe,
          hrest, List.flatMap_cons, List.append_assoc]
      · simpa using hlen'
      · rw [htake', htake, List.flatMap_cons, List.append_assoc]
      · simpa using hstop

/-- Whatever the capacity, the frames that `encode` appends are those of a front part of the list: the
buffer never outgrows the capacity on the way, decoding it lists that part and ends where the buffer
ends, and acks are left over only when no further frame fits. -/
theorem encode_decodeAll (buf : Bytes) (acks : List UInt32) (capacity : ℕ) (hs : acks.Pairwise (· < ·))
    (hl : acks.length < 2 ^ 29) (hc : buf.length ≤ capacity) :
    ∃ (i : ℕ) (frames : Bytes) (peak : ℕ),
      (encode buf acks capacity : Outcome ε _) = .ok (i, ⟨buf ++ frames, peak⟩) ∧
      peak ≤ capacity ∧ (buf ++ frames).length ≤ capacity ∧ i ≤ acks.length ∧
      (decodeAll (buf ++ frames) buf.length : Outcome ε _) =
        .ok (true, (buf ++ frames).length, acks.take i) ∧
      (i < acks.length → capacity - (buf ++ frames).length < 5) := by
  obtain ⟨j, ds, peak, henc, hpeak, hlen, hj, htake, hstop⟩ := encodeFrames_spec (ε := ε)
    (i := 0) (n := acks.length + 1) hs hl (show (Buf.ofBytes buf).peak ≤ capacity from hc) hc (Nat.zero_le _) (by omega)
  have hdec := decodeAll_eq (ε := ε) buf ds
  rw [List.take_zero, List.nil_append] at htake
  rw [← htake] at hdec
  exact ⟨j, ds.flatMap Frame.bytes, peak, henc, hpeak, hlen, hj, hdec, fun h => by
    have := hstop h
    change capacity < (buf ++ ds.flatMap Frame.bytes).length + 5 at this
    omega⟩

/-- A list that spans a set run, two gaps and the largest number, next to a buffer with room for it. -/
theorem encode_decodeAll_mixed :
    ∃ (i : ℕ) (frames : Bytes) (peak : ℕ),
      (encode [7] [3, 4, 5, 9, 0xFFFFFFFE, 0xFFFFFFFF] 20 : Outcome Empty _) = .ok (i, ⟨[7] ++ frames, peak⟩) ∧
      peak ≤ 20 ∧ ([7] ++ frames).length ≤ 20 ∧ i ≤ 6 ∧
      (decodeAll ([7] ++ frames) 1 : Outcome Empty _) =
        .ok (true, ([7] ++ frames).length, [3, 4, 5, 9, 0xFFFFFFFE, 0xFFFFFFFF].take i) ∧
      (i < 6 → 20 - ([7] ++ frames).length < 5) :=
  encode_decodeAll [7] [3, 4, 5, 9, 0xFFFFFFFE, 0xFFFFFFFF] 20 (by decide) (by decide) (by decide)

example : (encode [] [3, 4, 9] 100 : Outcome Empty _) =
    .ok (3, ⟨[variantAckRun, 0, 0, 0, 3, 1, 1, 4], 8⟩) := by decide

end Pqsnet.Session.AckRuns
