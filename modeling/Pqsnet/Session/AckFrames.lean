import Pqsnet.Session.AckRuns

/-! What a frame of acks stands for, and that the decoder lists it. -/

namespace Pqsnet.Session.AckRuns

open Checked Outcome

variable {ε : Type}

/-- Behind a number `c`, `set n` is the `n + 1` numbers that follow it and `unset n` is the one number
after a gap of `n + 1`. -/
inductive Run
  | set (n : ℕ)
  | unset (n : ℕ)
  deriving DecidableEq

namespace Run

def code : Run → ℕ
  | set n => 2 * n + 1
  | unset n => 2 * n

def acks (c : ℕ) : Run → List ℕ
  | set n => List.range' (c + 1) (n + 1)
  | unset n => [c + n + 2]

/-- Where the next run counts from: a set run is followed by one absent number. -/
def next (c : ℕ) : Run → ℕ
  | set n => c + n + 2
  | unset n => c + n + 2

def acksFrom (c : ℕ) : List Run → List ℕ
  | [] => []
  | r :: rs => r.acks c ++ acksFrom (r.next c) rs

def nextFrom (c : ℕ) : List Run → ℕ
  | [] => c
  | r :: rs => nextFrom (r.next c) rs

def payload (rs : List Run) : Bytes := rs.flatMap fun r => varusizeWrite r.code

lemma acksFrom_concat (c : ℕ) (rs : List Run) (r : Run) :
    acksFrom c (rs ++ [r]) = acksFrom c rs ++ r.acks (nextFrom c rs) := by
  induction rs generalizing c with
  | nil => simp [acksFrom, nextFrom]
  | cons s rs ih => simp [acksFrom, nextFrom, ih]

lemma nextFrom_concat (c : ℕ) (rs : List Run) (r : Run) :
    nextFrom c (rs ++ [r]) = r.next (nextFrom c rs) := by
  induction rs generalizing c with
  | nil => rfl
  | cons s rs ih => exact ih _

lemma payload_cons (r : Run) (rs : List Run) : payload (r :: rs) = varusizeWrite r.code ++ payload rs := rfl

lemma payload_concat (rs : List Run) (r : Run) : payload (rs ++ [r]) = payload rs ++ varusizeWrite r.code := by
  simp [payload]

lemma length_le_payload (rs : List Run) : rs.length ≤ (payload rs).length := by
  induction rs with
  | nil => simp
  | cons r rs ih =>
    have hr := varusizeLen_pos r.code
    rw [payload_cons, List.length_append, varusizeWrite_length, List.length_cons]
    omega

lemma payload_pos {rs : List Run} (h : rs ≠ []) : 0 < (payload rs).length :=
  lt_of_lt_of_le (List.length_pos_of_ne_nil h) (length_le_payload rs)

end Run

open Run

/-- A frame that the encoder can write: each run fits a varint of at most four bytes, and all of them
fit the length byte. -/
structure Frame where
  first : UInt32
  runs : List Run
  short : ∀ r ∈ runs, r.code ≤ varintU32Max
  fits : (payload runs).length ≤ 256

namespace Frame

def bytes (d : Frame) : Bytes :=
  if d.runs = [] then variantAckSingle :: toBe 4 d.first.toNat
  else variantAckRun :: (toBe 4 d.first.toNat ++ (UInt8.ofNat ((payload d.runs).length - 1) :: payload d.runs))

def acks (d : Frame) : List UInt32 := (d.first.toNat :: acksFrom d.first.toNat d.runs).map UInt32.ofNat

lemma bytes_pos (d : Frame) : 0 < d.bytes.length := by
  unfold bytes
  split <;> simp

end Frame

/-! The decoder. -/

lemma countUp_eq (n c : ℕ) : countUp n (UInt32.ofNat c) = (List.range' (c + 1) n).map UInt32.ofNat := by
  induction n generalizing c with
  | zero => rfl
  | succ n ih =>
    have hc : UInt32.ofNat c + 1 = UInt32.ofNat (c + 1) := (UInt32.ofNat_add c 1).symm
    rw [countUp, hc, ih, List.range'_succ, List.map_cons]

/-- The run that a number stands for. -/
def Run.ofCode (n : ℕ) : Run := if n &&& 1 > 0 then .set (n >>> 1) else .unset (n >>> 1)

lemma ofCode_code (r : Run) : ofCode r.code = r := by
  rw [ofCode, Nat.and_one_is_mod, Nat.shiftRight_one]
  cases r with
  | set n =>
    rw [code, if_pos (by omega)]
    congr 1
    omega
  | unset n =>
    rw [code, if_neg (by omega)]
    congr 1
    omega

lemma decodeRuns_read {buf : Bytes} {fuel i j n : ℕ} (hi : i < buf.length)
    (hread : (varu32TryRead buf i : Outcome ε _) = .ok (some n, j)) (c : ℕ) :
    (decodeRuns buf (fuel + 1) i (UInt32.ofNat c) : Outcome ε _) = (do
      let (done, k, rest) ← decodeRuns buf fuel j (UInt32.ofNat ((ofCode n).next c))
      .ok (done, k, ((ofCode n).acks c).map UInt32.ofNat ++ rest)) := by
  rw [decodeRuns, if_pos hi, hread, ok_bind, ofCode]
  dsimp only
  split_ifs with hset
  · have hnext : UInt32.ofNat c + UInt32.ofNat ((n >>> 1) + 1) + (1 : UInt32) = UInt32.ofNat (c + (n >>> 1) + 2) := by
      rw [← UInt32.ofNat_add]
      exact (UInt32.ofNat_add _ 1).symm
    rw [hnext, countUp_eq]
    rfl
  · have hnext : UInt32.ofNat c + UInt32.ofNat ((n >>> 1) + 2) = UInt32.ofNat (c + (n >>> 1) + 2) := (UInt32.ofNat_add _ _).symm
    rw [hnext]
    rfl

lemma decodeRuns_payload {buf a : Bytes} {n i c : ℕ} {rs : List Run} (hr : ∀ r ∈ rs, r.code ≤ varintU32Max)
    (hf : rs.length < n) (hb : buf = a ++ payload rs) (hi : i = a.length) :
    (decodeRuns buf n i (UInt32.ofNat c) : Outcome ε _) =
      .ok (true, buf.length, (acksFrom c rs).map UInt32.ofNat) := by
  induction rs generalizing a n i c with
  | nil =>
    obtain ⟨n, rfl⟩ := Nat.exists_eq_add_one_of_ne_zero (by omega : n ≠ 0)
    have hl : buf.length = i := by simp [hb, hi, payload]
    simp [decodeRuns, hl, acksFrom]
  | cons r rs ih =>
    obtain ⟨n, rfl⟩ := Nat.exists_eq_add_one_of_ne_zero (by omega : n ≠ 0)
    have hpos := varusizeLen_pos r.code
    have hl : i < buf.length := by
      rw [hb, hi, payload_cons]
      simp only [List.length_append, varusizeWrite_length]
      omega
    have hread : (varu32TryRead buf i : Outcome ε _) = .ok (some r.code, i + varusizeLen r.code) :=
      tryRead_write _ (hr r (by simp)) (by rw [hb, payload_cons]) hi
    have hrest : ∀ c, (decodeRuns buf n (i + varusizeLen r.code) (UInt32.ofNat c) : Outcome ε _) =
        .ok (true, buf.length, (acksFrom c rs).map UInt32.ofNat) := fun c =>
      ih (a := a ++ varusizeWrite r.code) (fun s hs => hr s (List.mem_cons_of_mem _ hs))
        (by simpa using hf) (by rw [hb, payload_cons, List.append_assoc])
        (by rw [hi, List.length_append, varusizeWrite_length])
    rw [decodeRuns_read hl hread, ofCode_code, hrest, ok_bind, acksFrom, List.map_append]

lemma decode_single {buf a c : Bytes} {i : ℕ} (first : UInt32) (hb : buf = a ++ (toBe 4 first.toNat ++ c))
    (hi : i = a.length) : (decode buf false i : Outcome ε _) = .ok (true, i + 4, [first]) := by
  have hl : ¬ i + 4 + false.toNat > buf.length := by
    simp only [hb, hi, List.length_append, toBe_length, Bool.toNat_false]
    omega
  have hs : (slice buf i (i + 4) : Outcome ε _) = .ok (toBe 4 first.toNat) :=
    slice_mid hb hi (by rw [hi, toBe_length])
  simp only [decode, if_neg hl, hs, ok_bind, fromBe_uint32, Bool.not_false, ↓reduceIte]

lemma decode_run {buf a c : Bytes} {i : ℕ} (first : UInt32) {rs : List Run}
    (hr : ∀ r ∈ rs, r.code ≤ varintU32Max) (hp : (payload rs).length ≤ 256) (hn : rs ≠ [])
    (hb : buf = a ++ (toBe 4 first.toNat ++ (UInt8.ofNat ((payload rs).length - 1) :: (payload rs ++ c))))
    (hi : i = a.length) : (decode buf true i : Outcome ε _) = .ok (true, i + (5 + (payload rs).length),
      (first.toNat :: acksFrom first.toNat rs).map UInt32.ofNat) := by
  have hpos := payload_pos hn
  have hlen : buf.length = i + 5 + (payload rs).length + c.length := by
    simp only [hb, hi, List.length_append, List.length_cons, toBe_length]
    omega
  have hs : (slice buf i (i + 4) : Outcome ε _) = .ok (toBe 4 first.toNat) :=
    slice_mid hb hi (by rw [hi, toBe_length])
  have hb' : buf = (a ++ toBe 4 first.toNat) ++ (UInt8.ofNat ((payload rs).length - 1) :: (payload rs ++ c)) := by
    rw [hb, List.append_assoc]
  have hx : (index buf (i + 4) : Outcome ε _) = .ok (UInt8.ofNat ((payload rs).length - 1)) := by
    apply index_ok
    rw [hb', List.getElem?_append_right (by simp [hi])]
    simp [hi]
  have ht : (UInt8.ofNat ((payload rs).length - 1)).toNat + 1 = (payload rs).length := by
    rw [UInt8.toNat_ofNat']
    omega
  have htake : buf.take (i + 4 + 1 + (payload rs).length) =
      ((a ++ toBe 4 first.toNat) ++ [UInt8.ofNat ((payload rs).length - 1)]) ++ payload rs := by
    have hb'' : buf = (((a ++ toBe 4 first.toNat) ++ [UInt8.ofNat ((payload rs).length - 1)]) ++ payload rs) ++ c := by
      rw [hb']
      simp
    rw [hb'', List.take_left' (by simp [hi]; omega)]
  have hruns := decodeRuns_payload (ε := ε) (n := (payload rs).length + 1) (c := first.toNat) hr
    (Nat.lt_succ_of_le (length_le_payload rs)) htake (i := i + 4 + 1) (by simp [hi])
  rw [UInt32.ofNat_toNat] at hruns
  have h1 : ¬ i + 4 + true.toNat > buf.length := by simp [hlen]; omega
  have h2 : ¬ i + 4 + 1 + (payload rs).length > buf.length := by omega
  simp only [decode, if_neg h1, hs, ok_bind, fromBe_uint32, hx, ht, if_neg h2, hruns]
  simp [hlen]
  omega

lemma decode_frame {buf a c : Bytes} {i : ℕ} (d : Frame) (hb : buf = a ++ (d.bytes ++ c)) (hi : i = a.length) :
    ∃ variant, buf[i]? = some variant ∧ (variant = variantAckRun ∨ variant = variantAckSingle) ∧
      (decode buf (variant = variantAckRun) (i + 1) : Outcome ε _) = .ok (true, i + d.bytes.length, d.acks) := by
  unfold Frame.bytes at hb ⊢
  split at hb
  · rename_i hn
    refine ⟨variantAckSingle, by simp [hb, hi], .inr rfl, ?_⟩
    have hb' : buf = (a ++ [variantAckSingle]) ++ (toBe 4 d.first.toNat ++ c) := by simp [hb]
    have h := decode_single (ε := ε) d.first hb' (i := i + 1) (by simp [hi])
    simpa [hn, Frame.acks, acksFrom, variantAckSingle, variantAckRun] using h
  · rename_i hn
    refine ⟨variantAckRun, by simp [hb, hi], .inl rfl, ?_⟩
    have hb' : buf = (a ++ [variantAckRun]) ++ (toBe 4 d.first.toNat ++
        (UInt8.ofNat ((payload d.runs).length - 1) :: (payload d.runs ++ c))) := by simp [hb]
    have h := decode_run (ε := ε) d.first d.short d.fits hn hb' (i := i + 1) (by simp [hi])
    have hl : i + 1 + (5 + (payload d.runs).length) = i + (1 + (4 + (1 + (payload d.runs).length))) := by omega
    rw [hl] at h
    simpa [hn, Frame.acks, Nat.add_comm, Nat.add_left_comm] using h

lemma decodeFrames_eq {buf a : Bytes} {n i : ℕ} {ds : List Frame} (hf : ds.length < n)
    (hb : buf = a ++ ds.flatMap Frame.bytes) (hi : i = a.length) :
    (decodeFrames buf n i : Outcome ε _) = .ok (true, buf.length, ds.flatMap Frame.acks) := by
  induction ds generalizing a n i with
  | nil =>
    obtain ⟨n, rfl⟩ := Nat.exists_eq_add_one_of_ne_zero (by omega : n ≠ 0)
    have hl : buf.length = i := by simp [hb, hi]
    simp [decodeFrames, hl]
  | cons d ds ih =>
    obtain ⟨n, rfl⟩ := Nat.exists_eq_add_one_of_ne_zero (by omega : n ≠ 0)
    have hd := d.bytes_pos
    have hl : i < buf.length := by
      simp only [hb, hi, List.flatMap_cons, List.length_append]
      omega
    rw [List.flatMap_cons] at hb
    obtain ⟨variant, hx, hv, hdec⟩ := decode_frame (ε := ε) d hb hi
    have hrest := ih (a := a ++ d.bytes) (n := n) (i := i + d.bytes.length) (by simpa using hf)
      (by rw [hb, List.append_assoc]) (by rw [hi, List.length_append])
    simp only [decodeFrames, if_pos hl, index_ok hx, ok_bind, if_pos hv, hdec, hrest, ↓reduceIte,
      List.flatMap_cons]

lemma length_le_flatMap_bytes (ds : List Frame) : ds.length ≤ (ds.flatMap Frame.bytes).length := by
  induction ds with
  | nil => simp
  | cons d ds ih =>
    have hd := d.bytes_pos
    rw [List.flatMap_cons, List.length_append, List.length_cons]
    omega

lemma decodeAll_eq (a : Bytes) (ds : List Frame) :
    (decodeAll (a ++ ds.flatMap Frame.bytes) a.length : Outcome ε _) =
      .ok (true, (a ++ ds.flatMap Frame.bytes).length, ds.flatMap Frame.acks) := by
  apply decodeFrames_eq _ rfl rfl
  have hl := length_le_flatMap_bytes ds
  rw [List.length_append]
  omega

end Pqsnet.Session.AckRuns
