import Pqsnet.Checked.Bytes

/-! Variable-length integers: the two high bits of the first byte give the width. -/

namespace Pqsnet.Session

open Checked Outcome

def varintU8Max : ℕ := 0xFF >>> 2
def varintU16Max : ℕ := 0xFFFF >>> 2
def varintU32Max : ℕ := 0xFFFFFFFF >>> 2
def varintMax : ℕ := 0xFFFFFFFFFFFFFFFF >>> 2

def varusizeLen (value : ℕ) : ℕ :=
  if value ≤ varintU16Max then
    if value ≤ varintU8Max then 1 else 2
  else
    if value ≤ varintU32Max then 4 else 8

def varu64Len (value : ℕ) : ℕ := varusizeLen value

def varu32Len (value : UInt32) : ℕ := varusizeLen value.toNat

def varusizeWrite (value : ℕ) : Bytes :=
  if value ≤ varintU16Max then
    if value ≤ varintU8Max then toBe 1 value else toBe 2 (value ||| 0b01 <<< 14)
  else
    if value ≤ varintU32Max then toBe 4 (value ||| 0b10 <<< 30) else toBe 8 (value ||| 0b11 <<< 62)

def varu64Write (value : ℕ) : Bytes := varusizeWrite value

def varu32Write (value : UInt32) : Bytes := varusizeWrite value.toNat

section TryRead

variable {ε : Type}

/-- The arm of a read that takes `w` bytes. The index moves even when `f` refuses the integer. -/
def readWide (w : ℕ) (f : ℕ → Option ℕ) (buf : Bytes) (idx : ℕ) : Outcome ε (Option ℕ × ℕ) := do
  let j := idx + w
  if j > buf.length then .ok (none, idx)
  else
    let bytes ← slice buf idx j
    .ok (f (fromBe bytes), j)

/-- `max` is the largest value of the integer type read. Only an eight byte integer can exceed it, and
its two width bits are not masked off. -/
def tryRead (max : ℕ) (buf : Bytes) (idx : ℕ) : Outcome ε (Option ℕ × ℕ) :=
  if idx ≥ buf.length then .ok (none, idx)
  else do
    let b ← index buf idx
    match (b >>> 6).toNat with
    | 0b00 => .ok (some b.toNat, idx + 1)
    | 0b01 => readWide 2 (fun v => some (v &&& varintU16Max)) buf idx
    | 0b10 => readWide 4 (fun v => some (v &&& varintU32Max)) buf idx
    | 0b11 => readWide 8 (fun v => if v ≤ max then some v else none) buf idx
    | _ => .panic .unreachable

def varu64TryRead (buf : Bytes) (idx : ℕ) : Outcome ε (Option ℕ × ℕ) := tryRead (2 ^ 64 - 1) buf idx
def varusizeTryRead (buf : Bytes) (idx : ℕ) : Outcome ε (Option ℕ × ℕ) := tryRead (2 ^ 64 - 1) buf idx
def varu32TryRead (buf : Bytes) (idx : ℕ) : Outcome ε (Option ℕ × ℕ) := tryRead (2 ^ 32 - 1) buf idx

/-- Refuses the eight byte form, and does not move the index then. -/
def varu30TryRead (buf : Bytes) (idx : ℕ) : Outcome ε (Option ℕ × ℕ) :=
  if idx ≥ buf.length then .ok (none, idx)
  else do
    let b ← index buf idx
    match (b >>> 6).toNat with
    | 0b00 => .ok (some b.toNat, idx + 1)
    | 0b01 => readWide 2 (fun v => some (v &&& varintU16Max)) buf idx
    | 0b10 => readWide 4 (fun v => some (v &&& varintU32Max)) buf idx
    | 0b11 => .ok (none, idx)
    | _ => .panic .unreachable

lemma width_eq (b : UInt8) : (b >>> 6).toNat = b.toNat / 64 := by
  simp [Nat.shiftRight_eq_div_pow]

lemma width_lt (b : UInt8) : (b >>> 6).toNat < 4 := by
  have hb := b.toNat_lt
  rw [width_eq]
  omega

lemma readWide_eq_ok (w : ℕ) (f : ℕ → Option ℕ) (buf : Bytes) (idx : ℕ) :
    (readWide w f buf idx : Outcome ε _) = .ok (none, idx) ∨
      idx + w ≤ buf.length ∧ ∃ n, n < 256 ^ w ∧ (readWide w f buf idx : Outcome ε _) = .ok (f n, idx + w) := by
  unfold readWide
  by_cases h : idx + w > buf.length
  · exact .inl (if_pos h)
  · have hn := fromBe_lt ((buf.take (idx + w)).drop idx)
    have hl : ((buf.take (idx + w)).drop idx).length = w := by
      simp only [List.length_drop, List.length_take]
      omega
    rw [hl] at hn
    refine .inr ⟨by omega, _, hn, ?_⟩
    rw [if_neg h, slice_ok (by omega) (by omega), ok_bind]

lemma tryRead_cases (max : ℕ) (buf : Bytes) (idx : ℕ) :
    ∃ v j, (tryRead max buf idx : Outcome ε _) = .ok (v, j) ∧ (v = none ∧ j = idx ∨ idx < j ∧ j ≤ buf.length) := by
  unfold tryRead
  by_cases h : idx ≥ buf.length
  · exact ⟨none, idx, if_pos h, .inl ⟨rfl, rfl⟩⟩
  obtain ⟨b, hi⟩ : ∃ b, buf[idx]? = some b := ⟨_, List.getElem?_eq_getElem (by omega)⟩
  simp only [if_neg h, index_ok hi, ok_bind]
  have wide : ∀ (w : ℕ) (f : ℕ → Option ℕ), 0 < w → ∃ v j, (readWide w f buf idx : Outcome ε _) = .ok (v, j) ∧
      (v = none ∧ j = idx ∨ idx < j ∧ j ≤ buf.length) := by
    intro w f hw
    rcases readWide_eq_ok w f buf idx with h | ⟨hl, n, -, h⟩
    · exact ⟨none, idx, h, .inl ⟨rfl, rfl⟩⟩
    · exact ⟨f n, idx + w, h, .inr ⟨by omega, hl⟩⟩
  have hw := width_lt b
  obtain hb | hb | hb | hb : (b >>> 6).toNat = 0 ∨ (b >>> 6).toNat = 1 ∨ (b >>> 6).toNat = 2 ∨
      (b >>> 6).toNat = 3 := by omega
  · rw [hb]
    exact ⟨_, _, rfl, .inr ⟨by omega, by omega⟩⟩
  · rw [hb]
    exact wide 2 _ (by omega)
  · rw [hb]
    exact wide 4 _ (by omega)
  · rw [hb]
    exact wide 8 _ (by omega)

lemma tryRead_eq_ok (max : ℕ) (buf : Bytes) (idx : ℕ) :
    ∃ v j, (tryRead max buf idx : Outcome ε _) = .ok (v, j) ∧ (v.isSome → idx < j ∧ j ≤ buf.length) := by
  obtain ⟨v, j, hread, hcases⟩ := tryRead_cases (ε := ε) max buf idx
  refine ⟨v, j, hread, fun hv => hcases.resolve_left ?_⟩
  rintro ⟨rfl, -⟩
  cases hv

lemma readWide_mid {a m c buf : Bytes} {w idx : ℕ} (f : ℕ → Option ℕ) (hb : buf = a ++ (m ++ c))
    (hm : m.length = w) (hi : idx = a.length) :
    (readWide w f buf idx : Outcome ε _) = .ok (f (fromBe m), idx + w) := by
  have hl : ¬ idx + w > buf.length := by
    simp only [hb, hi, List.length_append]
    omega
  simp only [readWide, if_neg hl]
  rw [slice_mid hb hi (by omega), ok_bind]

lemma tryRead_index {buf : Bytes} {idx : ℕ} {b : UInt8} (max : ℕ) (h : buf[idx]? = some b) :
    (tryRead max buf idx : Outcome ε _) = match b.toNat / 64 with
      | 0b00 => .ok (some b.toNat, idx + 1)
      | 0b01 => readWide 2 (fun v => some (v &&& varintU16Max)) buf idx
      | 0b10 => readWide 4 (fun v => some (v &&& varintU32Max)) buf idx
      | 0b11 => readWide 8 (fun v => if v ≤ max then some v else none) buf idx
      | _ => .panic .unreachable := by
  have hl : ¬ idx ≥ buf.length := by
    have := (List.getElem?_eq_some_iff.mp h).1
    omega
  rw [tryRead, if_neg hl, index_ok h, ok_bind, width_eq]

lemma readWide_first {buf : Bytes} {idx w v j : ℕ} {b : UInt8} {f : ℕ → Option ℕ} (hb : buf[idx]? = some b)
    (h : (readWide (w + 1) f buf idx : Outcome ε _) = .ok (some v, j)) :
    ∃ low, low < 256 ^ w ∧ f (b.toNat * 256 ^ w + low) = some v := by
  by_cases hl : idx + (w + 1) > buf.length
  · simp [readWide, hl] at h
  have hs : (buf.take (idx + (w + 1))).drop idx = b :: (buf.take (idx + (w + 1))).drop (idx + 1) := by
    have hi : idx < (buf.take (idx + (w + 1))).length := by
      rw [List.length_take]
      omega
    rw [List.drop_eq_getElem_cons hi]
    congr 1
    rw [List.getElem_take]
    exact (List.getElem?_eq_some_iff.mp hb).2
  have hlen : ((buf.take (idx + (w + 1))).drop (idx + 1)).length = w := by
    rw [List.length_drop, List.length_take]
    omega
  have hlow := fromBe_lt ((buf.take (idx + (w + 1))).drop (idx + 1))
  rw [hlen] at hlow
  simp only [readWide, if_neg hl, slice_ok (show idx ≤ idx + (w + 1) by omega) (not_lt.mp hl), ok_bind, ok_inj,
    Prod.mk.injEq, hs, fromBe_cons, hlen] at h
  exact ⟨_, hlow, h.1⟩

/-- What can be read: an integer of at most 30 bits, or eight bytes with the width bits still on top. -/
lemma tryRead_value {max idx v j : ℕ} {buf : Bytes} (h : (tryRead max buf idx : Outcome ε _) = .ok (some v, j)) :
    v < 2 ^ 30 ∨ 3 * 2 ^ 62 ≤ v ∧ v < 2 ^ 64 ∧ v ≤ max := by
  have hi : idx < buf.length := by
    by_contra hge
    simp [tryRead, not_lt.mp hge] at h
  obtain ⟨b, hb⟩ : ∃ b, buf[idx]? = some b := ⟨_, List.getElem?_eq_getElem hi⟩
  have hlt := b.toNat_lt
  have small : ∀ (w : ℕ) (mask : ℕ), mask < 2 ^ 30 →
      (readWide w (fun n => some (n &&& mask)) buf idx : Outcome ε _) = .ok (some v, j) → v < 2 ^ 30 := by
    intro w mask hmask hr
    rcases readWide_eq_ok (ε := ε) w (fun n => some (n &&& mask)) buf idx with h0 | ⟨-, n, -, h0⟩
    · simp [hr] at h0
    · rw [hr, ok_inj, Prod.mk.injEq, Option.some.injEq] at h0
      exact h0.1 ▸ lt_of_le_of_lt Nat.and_le_right hmask
  rw [tryRead_index max hb] at h
  obtain hd | hd | hd | hd : b.toNat / 64 = 0 ∨ b.toNat / 64 = 1 ∨ b.toNat / 64 = 2 ∨ b.toNat / 64 = 3 := by omega
  · simp only [hd, ok_inj, Prod.mk.injEq, Option.some.injEq] at h
    omega
  · rw [hd] at h
    exact .inl (small 2 _ (by decide) h)
  · rw [hd] at h
    exact .inl (small 4 _ (by decide) h)
  · rw [hd] at h
    obtain ⟨low, hlow, hv⟩ := readWide_first (w := 7) hb h
    split at hv
    · cases hv
      omega
    · cases hv

end TryRead

/-! A written integer is read back, whatever stands around it. -/

lemma or_width {v k : ℕ} (p : ℕ) (h : v < 2 ^ k) : v ||| p <<< k = p * 2 ^ k + v := by
  rw [Nat.or_comm, Nat.shiftLeft_eq, Nat.mul_comm p, Nat.two_pow_add_eq_or_of_lt h]

lemma and_width {v k : ℕ} (p : ℕ) (h : v < 2 ^ k) : (p * 2 ^ k + v) &&& (2 ^ k - 1) = v := by
  rw [Nat.and_two_pow_sub_one_eq_mod, Nat.mul_comm, Nat.mul_add_mod, Nat.mod_eq_of_lt h]

@[simp] lemma varusizeWrite_length (v : ℕ) : (varusizeWrite v).length = varusizeLen v := by
  unfold varusizeWrite varusizeLen
  split_ifs <;> simp

lemma varusizeLen_pos (v : ℕ) : 0 < varusizeLen v := by
  unfold varusizeLen
  split_ifs <;> omega

lemma getElem?_toBe {buf a c : Bytes} {w v idx : ℕ} (hb : buf = a ++ (toBe (w + 1) v ++ c))
    (hi : idx = a.length) : buf[idx]? = some (UInt8.ofNat (v / 256 ^ w % 256)) := by
  rw [hb, hi, toBe_succ, List.getElem?_append_right le_rfl, Nat.sub_self]
  rfl

lemma tryRead_write {ε : Type} {buf a c : Bytes} {idx v : ℕ} (max : ℕ) (hv : v ≤ varintU32Max)
    (hb : buf = a ++ (varusizeWrite v ++ c)) (hi : idx = a.length) :
    (tryRead max buf idx : Outcome ε _) = .ok (some v, idx + varusizeLen v) := by
  have h30 : v < 2 ^ 30 := by simp only [varintU32Max] at hv; omega
  unfold varusizeWrite at hb
  unfold varusizeLen
  split_ifs at hb ⊢ with h16 h8
  · have hx := getElem?_toBe hb hi
    have hn : (UInt8.ofNat (v / 256 ^ 0 % 256)).toNat = v := by
      simp only [varintU8Max] at h8
      simp only [pow_zero, Nat.div_one, UInt8.toNat_ofNat']
      omega
    have hd : v / 64 = 0 := by simp only [varintU8Max] at h8; omega
    rw [tryRead_index max hx, hn, hd]
    rfl
  · have h14 : v < 2 ^ 14 := by simp only [varintU16Max] at h16; omega
    rw [or_width 1 h14] at hb
    have hx := getElem?_toBe hb hi
    have hd : (UInt8.ofNat ((1 * 2 ^ 14 + v) / 256 ^ 1 % 256)).toNat / 64 = 1 := by
      rw [UInt8.toNat_ofNat']
      omega
    have hf : fromBe (toBe 2 (1 * 2 ^ 14 + v)) = 1 * 2 ^ 14 + v := by
      rw [fromBe_toBe]
      omega
    rw [tryRead_index max hx, hd]
    change readWide 2 _ buf idx = _
    rw [readWide_mid _ hb (toBe_length _ _) hi, hf]
    exact congrArg (fun n => Except.ok (some n, idx + 2)) (and_width 1 h14)
  · rw [or_width 2 h30] at hb
    have hx := getElem?_toBe hb hi
    have hd : (UInt8.ofNat ((2 * 2 ^ 30 + v) / 256 ^ 3 % 256)).toNat / 64 = 2 := by
      rw [UInt8.toNat_ofNat']
      omega
    have hf : fromBe (toBe 4 (2 * 2 ^ 30 + v)) = 2 * 2 ^ 30 + v := by
      rw [fromBe_toBe]
      omega
    rw [tryRead_index max hx, hd]
    change readWide 4 _ buf idx = _
    rw [readWide_mid _ hb (toBe_length _ _) hi, hf]
    exact congrArg (fun n => Except.ok (some n, idx + 4)) (and_width 2 h30)

lemma tryRead_write_wide {ε : Type} {buf a c : Bytes} {idx v : ℕ} (hlow : varintU32Max < v) (hv : v ≤ varintMax)
    (hb : buf = a ++ (varusizeWrite v ++ c)) (hi : idx = a.length) :
    (tryRead (2 ^ 64 - 1) buf idx : Outcome ε _) = .ok (some (3 * 2 ^ 62 + v), idx + 8) := by
  have h62 : v < 2 ^ 62 := by simp only [varintMax] at hv; omega
  have hnot16 : ¬ v ≤ varintU16Max := by simp only [varintU32Max, varintU16Max] at hlow ⊢; omega
  rw [varusizeWrite, if_neg hnot16, if_neg (not_le.mpr hlow), or_width 3 h62] at hb
  have hx := getElem?_toBe hb hi
  have hd : (UInt8.ofNat ((3 * 2 ^ 62 + v) / 256 ^ 7 % 256)).toNat / 64 = 3 := by
    rw [UInt8.toNat_ofNat']
    omega
  have hf : fromBe (toBe 8 (3 * 2 ^ 62 + v)) = 3 * 2 ^ 62 + v := by
    rw [fromBe_toBe]
    omega
  rw [tryRead_index _ hx, hd]
  change readWide 8 _ buf idx = _
  rw [readWide_mid _ hb (toBe_length _ _) hi, hf, if_pos (by omega)]

section Readers

variable {ε : Type} {buf : Bytes} {idx v j : ℕ}

lemma tryRead_mono {max max' : ℕ} (hmax : max ≤ max') (h : (tryRead max buf idx : Outcome ε _) = .ok (some v, j)) :
    (tryRead max' buf idx : Outcome ε _) = .ok (some v, j) := by
  have hi : idx < buf.length := by
    by_contra hge
    simp [tryRead, not_lt.mp hge] at h
  obtain ⟨b, hb⟩ : ∃ b, buf[idx]? = some b := ⟨_, List.getElem?_eq_getElem hi⟩
  rw [tryRead_index _ hb] at h ⊢
  split at h
  · exact h
  · exact h
  · exact h
  · rw [readWide] at h ⊢
    split_ifs at h ⊢
    · exact h
    · obtain ⟨bytes, hbytes, h⟩ := bind_eq_ok.mp h
      rw [hbytes, ok_bind]
      obtain ⟨hv, rfl⟩ := Prod.mk.inj (ok_inj.mp h)
      split_ifs at hv with hle
      rw [if_pos (hle.trans hmax), hv]
  · exact h

lemma tryRead_of_varu30TryRead (max : ℕ) (h : (varu30TryRead buf idx : Outcome ε _) = .ok (some v, j)) :
    (tryRead max buf idx : Outcome ε _) = .ok (some v, j) := by
  rw [varu30TryRead] at h
  rw [tryRead]
  split_ifs at h ⊢
  · exact h
  · obtain ⟨b, hb, h⟩ := bind_eq_ok.mp h
    rw [hb, ok_bind]
    split at h
    · exact h
    · exact h
    · exact h
    · cases Prod.mk.inj (ok_inj.mp h) |>.1
    · exact h

lemma varu30TryRead_of_tryRead {max : ℕ} (hv : v < 2 ^ 30) (h : (tryRead max buf idx : Outcome ε _) = .ok (some v, j)) :
    (varu30TryRead buf idx : Outcome ε _) = .ok (some v, j) := by
  rw [tryRead] at h
  rw [varu30TryRead]
  split_ifs at h ⊢ with hi
  · exact h
  · obtain ⟨b, hb⟩ : ∃ b, buf[idx]? = some b := ⟨_, List.getElem?_eq_getElem (not_le.mp hi)⟩
    rw [index_ok hb, ok_bind] at h ⊢
    have hw := width_eq b
    split at h
    · exact h
    · exact h
    · exact h
    · rename_i hthree
      obtain ⟨low, -, hf⟩ := readWide_first (w := 7) hb h
      split_ifs at hf
      rw [Option.some.injEq] at hf
      omega
    · exact h

/-- The bytes of an integer, by any of the writers that take it. -/
def Writes (v : ℕ) (w : Bytes) : Prop := w = varu64Write v ∨ w = varusizeWrite v ∨ ∃ u : UInt32, u.toNat = v ∧ w = varu32Write u

/-- A reader finds the integer whatever stands around its bytes, and stops behind them. -/
def ReadsBack (read : Bytes → ℕ → Outcome Empty (Option ℕ × ℕ)) (v : ℕ) (w : Bytes) : Prop :=
  ∀ a c, read (a ++ (w ++ c)) a.length = .ok (some v, a.length + varu64Len v)

/-- What the writers write is read back, by the narrow readers if the integer has at most 30 bits. -/
def CodecAgrees (v : ℕ) : Prop :=
  ∀ w, Writes v w → w.length = varu64Len v ∧ ReadsBack varu64TryRead v w ∧ ReadsBack varusizeTryRead v w ∧
    (v ≤ 2 ^ 30 - 1 → ReadsBack varu32TryRead v w ∧ ReadsBack varu30TryRead v w)

def readers : List (Bytes → ℕ → Outcome Empty (Option ℕ × ℕ)) :=
  [varu64TryRead, varusizeTryRead, varu32TryRead, varu30TryRead]

lemma writes_eq {w : Bytes} (h : Writes v w) : w = varusizeWrite v := by
  obtain rfl | rfl | ⟨u, rfl, rfl⟩ := h <;> rfl

lemma codecAgrees_of_le (hv : v ≤ varintU32Max) : CodecAgrees v := by
  intro w hw
  obtain rfl := writes_eq hw
  have hread (max : ℕ) : ReadsBack (tryRead max) v (varusizeWrite v) := fun a c => tryRead_write max hv rfl rfl
  refine ⟨varusizeWrite_length v, hread _, hread _, fun hsmall => ⟨hread _, fun a c => ?_⟩⟩
  exact varu30TryRead_of_tryRead (by omega) (hread 0 a c)

lemma varu64TryRead_of_mem {read : Bytes → ℕ → Outcome Empty (Option ℕ × ℕ)} (hread : read ∈ readers)
    (h : read buf idx = .ok (some v, j)) : varu64TryRead buf idx = (.ok (some v, j) : Outcome Empty _) := by
  simp only [readers, List.mem_cons, List.not_mem_nil, or_false] at hread
  obtain rfl | rfl | rfl | rfl := hread
  · exact h
  · exact h
  · exact tryRead_mono (by decide) h
  · exact tryRead_of_varu30TryRead _ h

/-- Integers of at most 30 bits are read back, by each reader and whatever stands around them. All others are written in
eight bytes, whose width bits the readers do not mask off. No two readers disagree on what they return. -/
theorem varint_codec_iff (hv : v ≤ varintMax) :
    (∀ w, Writes v w → w.length = varu64Len v) ∧ (CodecAgrees v ↔ v ≤ varintU32Max) ∧
      (varintU32Max < v → ∀ w, Writes v w → ∀ a c,
        varu64TryRead (a ++ (w ++ c)) a.length = (.ok (some (3 * 2 ^ 62 + v), a.length + 8) : Outcome Empty _)) ∧
      ∀ read ∈ readers, ∀ read' ∈ readers, ∀ buf idx v v' j j', read buf idx = .ok (some v, j) →
        read' buf idx = .ok (some v', j') → v = v' ∧ j = j' := by
  have hwide (hlow : varintU32Max < v) (a c : Bytes) :
      varu64TryRead (a ++ (varusizeWrite v ++ c)) a.length = (.ok (some (3 * 2 ^ 62 + v), a.length + 8) : Outcome Empty _) :=
    tryRead_write_wide hlow hv rfl rfl
  refine ⟨fun w hw => ?_, ⟨fun h => ?_, codecAgrees_of_le⟩, fun hlow w hw => ?_, ?_⟩
  · obtain rfl := writes_eq hw
    exact varusizeWrite_length v
  · by_contra hlow
    obtain ⟨-, hback, -⟩ := h (varusizeWrite v) (.inr (.inl rfl))
    have hread := (hback [] []).symm.trans (hwide (not_le.mp hlow) [] [])
    rw [ok_inj, Prod.mk.injEq, Option.some.injEq] at hread
    omega
  · obtain rfl := writes_eq hw
    exact hwide hlow
  · intro read hread read' hread' buf idx v v' j j' h h'
    have heq := (varu64TryRead_of_mem hread h).symm.trans (varu64TryRead_of_mem hread' h')
    rw [ok_inj, Prod.mk.injEq, Option.some.injEq] at heq
    exact heq

theorem varint_codec_iff_zero :
    (∀ w, Writes 0 w → w.length = varu64Len 0) ∧ (CodecAgrees 0 ↔ 0 ≤ varintU32Max) :=
  have h := varint_codec_iff (v := 0) (by decide)
  ⟨h.1, h.2.1⟩

theorem not_codec_two_pow_30 : 2 ^ 30 ≤ varintMax ∧ ¬ CodecAgrees (2 ^ 30) := by
  refine ⟨by decide, fun h => ?_⟩
  obtain ⟨-, hback, -⟩ := h (varu64Write (2 ^ 30)) (.inl rfl)
  have hread := hback [] []
  revert hread
  decide

end Readers

end Pqsnet.Session
