import Pqsnet.Checked.Outcome

/-! Byte strings with checked slicing, arrays of a fixed length, and big-endian integers. -/

namespace Pqsnet.Checked

abbrev Bytes := List UInt8

/-- What holds of every byte can be checked by trying all of them. -/
instance (priority := low) decidableForallByte {P : UInt8 → Prop} [DecidablePred P] : Decidable (∀ v, P v) :=
  decidable_of_iff (∀ n : Fin 256, P (UInt8.ofNat n))
    ⟨fun h v => UInt8.ofNat_toNat (x := v) ▸ h ⟨v.toNat, v.toNat_lt⟩, fun h n => h (UInt8.ofNat n)⟩

/-- An array whose length is part of its type. -/
@[ext] structure Arr (n : ℕ) where
  bytes : Bytes
  size : bytes.length = n
  deriving DecidableEq

attribute [simp] Arr.size

namespace Arr

def zeros (n : ℕ) : Arr n := ⟨List.replicate n 0, by simp⟩

/-- A range of an array whose bounds are constants; it cannot be out of range. -/
def range {n : ℕ} (a : Arr n) (s e : ℕ) (h : s ≤ e ∧ e ≤ n) : Arr (e - s) :=
  ⟨(a.bytes.take e).drop s, by have := a.size; simp only [List.length_drop, List.length_take]; omega⟩

def ofBytes (n : ℕ) (b : Bytes) : Option (Arr n) := if h : b.length = n then some ⟨b, h⟩ else none

@[simp] lemma ofBytes_bytes {n : ℕ} (a : Arr n) : ofBytes n a.bytes = some a := by
  simp [ofBytes]

lemma bytes_inj {n : ℕ} {a b : Arr n} : a.bytes = b.bytes ↔ a = b :=
  ⟨Arr.ext, fun h => h ▸ rfl⟩

end Arr

variable {ε α : Type}

def index (b : Bytes) (i : ℕ) : Outcome ε UInt8 :=
  match b[i]? with
  | some x => .ok x
  | none => .panic .index

def slice (b : Bytes) (s e : ℕ) : Outcome ε Bytes :=
  if s ≤ e ∧ e ≤ b.length then .ok ((b.take e).drop s) else .panic .slice

/-- Conversion of a slice into an array, unwrapped. -/
def tryInto (n : ℕ) (b : Bytes) : Outcome ε (Arr n) :=
  if h : b.length = n then .ok ⟨b, h⟩ else .panic .unwrap

def copyFromSlice (dst src : Bytes) : Outcome ε Bytes :=
  if dst.length = src.length then .ok src else .panic .copyLength

/-- Runs `f` on the bytes of a range that it borrows mutably. -/
def withSlice (b : Bytes) (s e : ℕ) (f : Bytes → Outcome ε (α × Bytes)) : Outcome ε (α × Bytes) := do
  let part ← slice b s e
  let (a, part) ← f part
  .ok (a, b.take s ++ part ++ b.drop e)

def writeSlice (b : Bytes) (s e : ℕ) (src : Bytes) : Outcome ε Bytes := do
  let part ← slice b s e
  let part ← copyFromSlice part src
  .ok (b.take s ++ part ++ b.drop e)

lemma index_ok {b : Bytes} {i : ℕ} {x : UInt8} (h : b[i]? = some x) :
    (index b i : Outcome ε UInt8) = .ok x := by
  simp [index, h]

lemma slice_ok {b : Bytes} {s e : ℕ} (h : s ≤ e) (he : e ≤ b.length) :
    (slice b s e : Outcome ε Bytes) = .ok ((b.take e).drop s) := by
  simp [slice, h, he]

lemma slice_eq_ok {b c : Bytes} {s e : ℕ} :
    (slice b s e : Outcome ε Bytes) = .ok c ↔ s ≤ e ∧ e ≤ b.length ∧ c = (b.take e).drop s := by
  unfold slice
  split
  · rename_i h
    simp [h.1, h.2, eq_comm]
  · rename_i h
    simp only [Outcome.panic_ne_ok, false_iff]
    tauto

lemma slice_mid {b a m c : Bytes} {s e : ℕ} (hb : b = a ++ (m ++ c)) (hs : s = a.length)
    (he : e = a.length + m.length) : (slice b s e : Outcome ε Bytes) = .ok m := by
  subst hb hs he
  rw [slice_ok (by omega) (by simp), ← List.append_assoc, List.take_left' (by simp),
    List.drop_left' rfl]

lemma withSlice_mid {b a m c : Bytes} {s e : ℕ} {f : Bytes → Outcome ε (α × Bytes)}
    (hb : b = a ++ (m ++ c)) (hs : s = a.length) (he : e = a.length + m.length) :
    withSlice b s e f = f m >>= fun r => .ok (r.1, a ++ (r.2 ++ c)) := by
  have hd : b.drop e = c := by
    rw [hb, he, ← List.append_assoc, List.drop_left' (by simp)]
  have ht : b.take s = a := by rw [hb, hs, List.take_left' rfl]
  simp only [withSlice, slice_mid hb hs he, Outcome.ok_bind, hd, ht, List.append_assoc]

lemma writeSlice_mid {b a m c src : Bytes} {s e : ℕ} (hb : b = a ++ (m ++ c)) (hs : s = a.length)
    (he : e = a.length + m.length) (hm : m.length = src.length) :
    (writeSlice b s e src : Outcome ε Bytes) = .ok (a ++ (src ++ c)) := by
  have hd : b.drop e = c := by
    rw [hb, he, ← List.append_assoc, List.drop_left' (by simp)]
  have ht : b.take s = a := by rw [hb, hs, List.take_left' rfl]
  simp only [writeSlice, slice_mid hb hs he, Outcome.ok_bind, copyFromSlice, hm, ↓reduceIte, hd, ht,
    List.append_assoc]

lemma writeSlice_next {b : Bytes} (a rest src : Bytes) {s e : ℕ} (hb : b = a ++ rest) (hs : s = a.length)
    (he : e = a.length + src.length) (hr : src.length ≤ rest.length) :
    (writeSlice b s e src : Outcome ε Bytes) = .ok ((a ++ src) ++ rest.drop src.length) := by
  have hl : (rest.take src.length).length = src.length := by simp [hr]
  rw [writeSlice_mid (m := rest.take src.length) (c := rest.drop src.length)
    (by rw [List.take_append_drop, hb]) hs (by omega) hl, List.append_assoc]

lemma getElem?_splice {b src : Bytes} {s e : ℕ} (hs : s ≤ e) (he : e ≤ b.length) (hl : src.length = e - s) (p : ℕ) :
    (b.take s ++ src ++ b.drop e)[p]? = if s ≤ p ∧ p < e then src[p - s]? else b[p]? := by
  have hts : (b.take s).length = s := by
    rw [List.length_take]
    omega
  by_cases h1 : p < s
  · rw [if_neg (by omega), List.append_assoc, List.getElem?_append_left (by omega), List.getElem?_take_of_lt h1]
  · rw [List.append_assoc, List.getElem?_append_right (by omega), hts]
    by_cases h2 : p < e
    · rw [if_pos ⟨by omega, h2⟩, List.getElem?_append_left (by omega)]
    · rw [if_neg (by omega), List.getElem?_append_right (by omega), List.getElem?_drop, hl]
      congr 1
      omega

@[simp] lemma tryInto_arr {n : ℕ} (a : Arr n) : (tryInto n a.bytes : Outcome ε (Arr n)) = .ok a := by
  simp [tryInto]

lemma exists_back {b : Bytes} {n : ℕ} (h : n ≤ b.length) :
    ∃ (a : Bytes) (c : Arr n), b = a ++ c.bytes :=
  ⟨b.take (b.length - n), ⟨b.drop (b.length - n), by simp; omega⟩, by simp⟩

lemma exists_front {b : Bytes} {n : ℕ} (h : n ≤ b.length) :
    ∃ (a : Arr n) (c : Bytes), b = a.bytes ++ c :=
  ⟨⟨b.take n, by simp [h]⟩, b.drop n, by simp⟩

/-! Big-endian integers. -/

def toBe : ℕ → ℕ → Bytes
  | 0, _ => []
  | w + 1, v => toBe w (v / 256) ++ [UInt8.ofNat (v % 256)]

def fromBe (b : Bytes) : ℕ := b.foldl (fun acc x => acc * 256 + x.toNat) 0

@[simp] lemma toBe_length (w v : ℕ) : (toBe w v).length = w := by
  induction w generalizing v with
  | zero => rfl
  | succ w ih => simp [toBe, ih]

lemma toBe_succ (w v : ℕ) : toBe (w + 1) v = UInt8.ofNat (v / 256 ^ w % 256) :: toBe w v := by
  induction w generalizing v with
  | zero => simp [toBe]
  | succ w ih => rw [toBe, ih, toBe, Nat.div_div_eq_div_mul, ← pow_succ', List.cons_append]

lemma fromBe_append_singleton (b : Bytes) (x : UInt8) : fromBe (b ++ [x]) = fromBe b * 256 + x.toNat := by
  simp [fromBe]

lemma fromBe_toBe (w v : ℕ) : fromBe (toBe w v) = v % 256 ^ w := by
  induction w generalizing v with
  | zero => simp [toBe, fromBe, Nat.mod_one]
  | succ w ih =>
    have hx : (UInt8.ofNat (v % 256)).toNat = v % 256 := by simp
    rw [toBe, fromBe_append_singleton, ih, hx, pow_succ', Nat.mod_mul]
    ring

lemma fromBe_lt (b : Bytes) : fromBe b < 256 ^ b.length := by
  induction b using List.reverseRecOn with
  | nil => simp [fromBe]
  | append_singleton b x ih =>
    have hx := x.toNat_lt
    rw [fromBe_append_singleton, List.length_append, List.length_singleton, pow_succ]
    omega

lemma fromBe_cons (x : UInt8) (b : Bytes) : fromBe (x :: b) = x.toNat * 256 ^ b.length + fromBe b := by
  induction b using List.reverseRecOn with
  | nil => simp [fromBe]
  | append_singleton b y ih =>
    rw [← List.cons_append, fromBe_append_singleton, fromBe_append_singleton, ih, List.length_append,
      List.length_singleton, pow_succ]
    ring

lemma toBe_fromBe (b : Bytes) : toBe b.length (fromBe b) = b := by
  induction b using List.reverseRecOn with
  | nil => rfl
  | append_singleton b x ih =>
    have hx := x.toNat_lt
    have hd : (fromBe b * 256 + x.toNat) / 256 = fromBe b := by omega
    have hm : (fromBe b * 256 + x.toNat) % 256 = x.toNat := by omega
    rw [fromBe_append_singleton, List.length_append, List.length_singleton, toBe, hd, hm, ih,
      UInt8.ofNat_toNat]

lemma toBe_uint64 (b : Arr 8) : toBe 8 (UInt64.ofNat (fromBe b.bytes)).toNat = b.bytes := by
  have hb := fromBe_lt b.bytes
  rw [b.size] at hb
  rw [UInt64.toNat_ofNat_of_lt' (by simpa [UInt64.size] using hb)]
  simpa using toBe_fromBe b.bytes

lemma toBe_uint32 (b : Arr 4) : toBe 4 (UInt32.ofNat (fromBe b.bytes)).toNat = b.bytes := by
  have hb := fromBe_lt b.bytes
  rw [b.size] at hb
  rw [UInt32.toNat_ofNat_of_lt' (by simpa [UInt32.size] using hb)]
  simpa using toBe_fromBe b.bytes

lemma fromBe_uint64 (v : UInt64) : UInt64.ofNat (fromBe (toBe 8 v.toNat)) = v := by
  have hv := v.toNat_lt
  rw [fromBe_toBe, Nat.mod_eq_of_lt (by omega), UInt64.ofNat_toNat]

lemma fromBe_uint32 (v : UInt32) : UInt32.ofNat (fromBe (toBe 4 v.toNat)) = v := by
  have hv := v.toNat_lt
  rw [fromBe_toBe, Nat.mod_eq_of_lt (by omega), UInt32.ofNat_toNat]

end Pqsnet.Checked
