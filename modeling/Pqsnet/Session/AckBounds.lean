import Pqsnet.Session.AckFrames

/-! Frames of acks from a hostile peer, and when their numbers stay within 32 bits. -/

namespace Pqsnet.Session.AckRuns

open Checked Outcome Run

variable {ε : Type} {buf : Bytes} {fuel i c n : ℕ}

/-! The decoder in a build that checks arithmetic. -/

def add32 (a b : UInt32) : Outcome ε UInt32 := if a.toNat + b.toNat < 2 ^ 32 then .ok (a + b) else .panic .arith

def countUpChecked : ℕ → UInt32 → Outcome ε (List UInt32 × UInt32)
  | 0, curAckNo => .ok ([], curAckNo)
  | n + 1, curAckNo => do
    let curAckNo ← add32 curAckNo 1
    let (acks, last) ← countUpChecked n curAckNo
    .ok (curAckNo :: acks, last)

def runChecked (curRun : ℕ) (curAckNo : UInt32) : Outcome ε (List UInt32 × UInt32) :=
  let curRunLen := curRun >>> 1
  if curRun &&& 1 > 0 then do
    let (acks, curAckNo) ← countUpChecked (curRunLen + 1) curAckNo
    let curAckNo ← add32 curAckNo 1
    .ok (acks, curAckNo)
  else do
    let curAckNo ← add32 curAckNo (UInt32.ofNat (curRunLen + 2))
    .ok ([curAckNo], curAckNo)

def decodeRunsChecked (buf : Bytes) : ℕ → ℕ → UInt32 → Outcome ε (Bool × ℕ × List UInt32)
  | 0, _, _ => .panic .loopBound
  | fuel + 1, i, curAckNo =>
    if i < buf.length then do
      let (curRun, i) ← varu32TryRead buf i
      match curRun with
      | none => .ok (false, i, [])
      | some curRun =>
        let (acks, curAckNo) ← runChecked curRun curAckNo
        let (done, i, rest) ← decodeRunsChecked buf fuel i curAckNo
        .ok (done, i, acks ++ rest)
    else .ok (true, i, [])

def decodeChecked (buf : Bytes) (isRun : Bool) (i : ℕ) : Outcome ε (Bool × ℕ × List UInt32) := do
  if i + 4 + isRun.toNat > buf.length then .ok (false, i, [])
  else
    let bytes ← slice buf i (i + 4)
    let firstAckNo := UInt32.ofNat (fromBe bytes)
    let i := i + 4
    if !isRun then .ok (true, i, [firstAckNo])
    else
      let l ← index buf i
      let totalLen := l.toNat + 1
      let i := i + 1
      if i + totalLen > buf.length then .ok (false, i, [firstAckNo])
      else
        let (done, i, rest) ← decodeRunsChecked (buf.take (i + totalLen)) (totalLen + 1) i firstAckNo
        .ok (done, i, firstAckNo :: rest)

/-! The runs that a buffer holds, as far as they can be read. -/

def readRuns (buf : Bytes) : ℕ → ℕ → List Run
  | 0, _ => []
  | fuel + 1, i =>
    if i < buf.length then
      match (varu32TryRead buf i : Outcome Empty _) with
      | .ok (some curRun, i) => ofCode curRun :: readRuns buf fuel i
      | _ => []
    else []

/-- The first number of a frame. -/
def firstAckNo (buf : Bytes) (i : ℕ) : ℕ := fromBe ((buf.take (i + 4)).drop i)

/-- The numbers of the frame, with the absent one behind a run of set ones, stay within 32 bits. -/
def Fits (buf : Bytes) (isRun : Bool) (i : ℕ) : Prop :=
  isRun → ∀ l, buf[i + 4]? = some l → i + 5 + (l.toNat + 1) ≤ buf.length →
    nextFrom (firstAckNo buf i) (readRuns (buf.take (i + 5 + (l.toNat + 1))) (l.toNat + 1 + 1) (i + 5)) < 2 ^ 32

section Checked

lemma toNat_ofNat (hc : c < 2 ^ 32) : (UInt32.ofNat c).toNat = c := by
  rw [UInt32.toNat_ofNat']
  exact Nat.mod_eq_of_lt hc

lemma add32_ofNat (hc : c < 2 ^ 32) (hn : n < 2 ^ 32) :
    (add32 (UInt32.ofNat c) (UInt32.ofNat n) : Outcome ε _) = if c + n < 2 ^ 32 then .ok (UInt32.ofNat (c + n)) else .panic .arith := by
  rw [add32, toNat_ofNat hc, toNat_ofNat hn, ← UInt32.ofNat_add]

lemma countUpChecked_eq (hc : c < 2 ^ 32) : (countUpChecked n (UInt32.ofNat c) : Outcome ε _) =
    if c + n < 2 ^ 32 then .ok ((List.range' (c + 1) n).map UInt32.ofNat, UInt32.ofNat (c + n)) else .panic .arith := by
  induction n generalizing c with
  | zero =>
    rw [if_pos (by omega)]
    rfl
  | succ n ih =>
    rw [countUpChecked]
    have hone : (add32 (UInt32.ofNat c) 1 : Outcome ε _) = _ := add32_ofNat (n := 1) hc (by decide)
    rw [hone]
    by_cases hlt : c + 1 < 2 ^ 32
    · rw [if_pos hlt, ok_bind, ih hlt, Nat.add_right_comm, Nat.add_assoc c n 1]
      split_ifs
      · rw [ok_bind, List.range'_succ, List.map_cons]
      · rw [panic_bind]
    · rw [if_neg hlt, if_neg (by omega), panic_bind]

lemma countUpChecked_skip (hc : c < 2 ^ 32) : (do
      let (acks, curAckNo) ← countUpChecked n (UInt32.ofNat c)
      let curAckNo ← add32 curAckNo 1
      .ok (acks, curAckNo) : Outcome ε _) =
    if c + n + 1 < 2 ^ 32 then .ok ((List.range' (c + 1) n).map UInt32.ofNat, UInt32.ofNat (c + n + 1)) else .panic .arith := by
  rw [countUpChecked_eq hc]
  by_cases hlt : c + n < 2 ^ 32
  · have hone : (add32 (UInt32.ofNat (c + n)) 1 : Outcome ε _) = _ := add32_ofNat (n := 1) hlt (by decide)
    rw [if_pos hlt, ok_bind]
    dsimp only
    rw [hone]
    split_ifs
    · rw [ok_bind]
    · rw [panic_bind]
  · rw [if_neg hlt, if_neg (by omega), panic_bind]

lemma runChecked_eq (hc : c < 2 ^ 32) (hn : n < 2 ^ 30) : (runChecked n (UInt32.ofNat c) : Outcome ε _) =
    if (ofCode n).next c < 2 ^ 32 then .ok (((ofCode n).acks c).map UInt32.ofNat, UInt32.ofNat ((ofCode n).next c))
    else .panic .arith := by
  have hhalf : n >>> 1 < 2 ^ 29 := by
    rw [Nat.shiftRight_one]
    omega
  rw [runChecked, ofCode]
  dsimp only
  split_ifs with hset hnext hnext
  · exact (countUpChecked_skip hc).trans (if_pos hnext)
  · exact (countUpChecked_skip hc).trans (if_neg hnext)
  · change c + (n >>> 1) + 2 < 2 ^ 32 at hnext
    rw [add32_ofNat hc (by omega), if_pos (by omega), ok_bind]
    rfl
  · change ¬ c + (n >>> 1) + 2 < 2 ^ 32 at hnext
    rw [add32_ofNat hc (by omega), if_neg (by omega), panic_bind]

end Checked

section Sorted

lemma le_nextFrom (c : ℕ) (rs : List Run) : c ≤ nextFrom c rs := by
  induction rs generalizing c with
  | nil => exact le_rfl
  | cons r rs ih =>
    refine le_trans ?_ (ih (r.next c))
    cases r <;> exact Nat.le_add_right_of_le (Nat.le_add_right _ _)

lemma mem_acks {r : Run} {a : ℕ} (ha : a ∈ r.acks c) : c < a ∧ a ≤ r.next c := by
  cases r with
  | set n =>
    rw [Run.acks, List.mem_range'_1] at ha
    rw [next]
    omega
  | unset n =>
    rw [List.mem_singleton.mp ha, next]
    omega

lemma mem_acksFrom {rs : List Run} {a : ℕ} (ha : a ∈ acksFrom c rs) : c < a ∧ a ≤ nextFrom c rs := by
  induction rs generalizing c with
  | nil => cases ha
  | cons r rs ih =>
    have hnext := le_nextFrom c [r]
    obtain ha | ha := List.mem_append.mp ha
    · have := mem_acks ha
      exact ⟨this.1, this.2.trans (le_nextFrom _ _)⟩
    · have := ih ha
      exact ⟨hnext.trans_lt this.1, this.2⟩

lemma acksFrom_sorted (c : ℕ) (rs : List Run) : (acksFrom c rs).Pairwise (· < ·) := by
  induction rs generalizing c with
  | nil => exact List.Pairwise.nil
  | cons r rs ih =>
    refine List.pairwise_append.mpr ⟨?_, ih _, fun a ha b hb => (mem_acks ha).2.trans_lt (mem_acksFrom hb).1⟩
    cases r with
    | set n => exact List.pairwise_lt_range'
    | unset n => exact List.pairwise_singleton _ _

lemma map_ofNat_sorted {acks : List ℕ} (h : acks.Pairwise (· < ·)) (hlt : ∀ a ∈ acks, a < 2 ^ 32) :
    (acks.map UInt32.ofNat).Pairwise (· < ·) := by
  rw [List.pairwise_map]
  refine h.imp_of_mem fun {a b} ha hb hab => ?_
  rwa [UInt32.lt_iff_toNat_lt, toNat_ofNat (hlt a ha), toNat_ofNat (hlt b hb)]

end Sorted

section Decode

lemma decodeRuns_both (hi : i ≤ buf.length) (hf : buf.length - i < fuel) :
    ∃ done j, j ≤ buf.length ∧
      (decodeRuns buf fuel i (UInt32.ofNat c) : Outcome Empty _) =
        .ok (done, j, (acksFrom c (readRuns buf fuel i)).map UInt32.ofNat) ∧
      (c < 2 ^ 32 → (decodeRunsChecked buf fuel i (UInt32.ofNat c) : Outcome Empty _) =
        if nextFrom c (readRuns buf fuel i) < 2 ^ 32 then .ok (done, j, (acksFrom c (readRuns buf fuel i)).map UInt32.ofNat)
        else .panic .arith) := by
  induction fuel generalizing i c with
  | zero => omega
  | succ fuel ih =>
    obtain hlt | hge := hi.lt_or_eq
    · obtain ⟨v, j, hread, hcases⟩ := tryRead_cases (ε := Empty) (2 ^ 32 - 1) buf i
      have hread : (varu32TryRead buf i : Outcome Empty _) = .ok (v, j) := hread
      have hj : j ≤ buf.length := by omega
      cases v with
      | none =>
        refine ⟨false, j, hj, ?_, fun hc => ?_⟩
        · rw [decodeRuns, if_pos hlt, hread, ok_bind, readRuns, if_pos hlt, hread]
          rfl
        · rw [decodeRunsChecked, if_pos hlt, hread, ok_bind, readRuns, if_pos hlt, hread]
          exact (if_pos hc).symm
      | some n =>
        have hn : n < 2 ^ 30 := by
          have := tryRead_value hread
          omega
        have hij : i < j := (hcases.resolve_left fun h => by cases h.1).1
        obtain ⟨done, k, hk, hwrap, hchecked⟩ := ih (i := j) (c := (ofCode n).next c) hj (by omega)
        have hruns : readRuns buf (fuel + 1) i = ofCode n :: readRuns buf fuel j := by
          rw [readRuns, if_pos hlt, hread]
        rw [hruns, acksFrom, nextFrom, List.map_append]
        refine ⟨done, k, hk, ?_, fun hc => ?_⟩
        · rw [decodeRuns_read hlt hread, hwrap, ok_bind]
        · rw [decodeRunsChecked, if_pos hlt, hread, ok_bind]
          dsimp only
          rw [runChecked_eq hc hn]
          by_cases hnext : (ofCode n).next c < 2 ^ 32
          · rw [if_pos hnext, ok_bind]
            dsimp only
            rw [hchecked hnext]
            split_ifs
            · rw [ok_bind]
            · rw [panic_bind]
          · have hge := le_nextFrom ((ofCode n).next c) (readRuns buf fuel j)
            rw [if_neg hnext, if_neg (by omega), panic_bind]
    · subst hge
      have hnil : readRuns buf (fuel + 1) buf.length = [] := by rw [readRuns, if_neg (lt_irrefl _)]
      rw [hnil]
      refine ⟨true, buf.length, le_rfl, ?_, fun hc => ?_⟩
      · rw [decodeRuns, if_neg (lt_irrefl _)]
        rfl
      · rw [decodeRunsChecked, if_neg (lt_irrefl _)]
        exact (if_pos hc).symm

lemma firstAckNo_lt (h : i + 4 ≤ buf.length) : firstAckNo buf i < 2 ^ 32 := by
  have hlt := fromBe_lt ((buf.take (i + 4)).drop i)
  have hlen : ((buf.take (i + 4)).drop i).length = 4 := by
    rw [List.length_drop, List.length_take]
    omega
  rwa [hlen] at hlt

section Runs

variable {l : UInt8} (hl : buf[i + 4]? = some l) (hle : i + 5 + (l.toNat + 1) ≤ buf.length)

include hl hle

lemma decode_runs : (decode buf true i : Outcome ε _) = (do
    let (done, j, rest) ← decodeRuns (buf.take (i + 5 + (l.toNat + 1))) (l.toNat + 1 + 1) (i + 5) (UInt32.ofNat (firstAckNo buf i))
    .ok (done, j, UInt32.ofNat (firstAckNo buf i) :: rest)) := by
  rw [decode, if_neg (by rw [Bool.toNat_true]; omega), slice_ok (by omega) (by omega), ok_bind, if_neg (by decide), index_ok hl,
    ok_bind, if_neg (not_lt.mpr hle)]
  rfl

lemma decodeChecked_runs : (decodeChecked buf true i : Outcome ε _) = (do
    let (done, j, rest) ←
      decodeRunsChecked (buf.take (i + 5 + (l.toNat + 1))) (l.toNat + 1 + 1) (i + 5) (UInt32.ofNat (firstAckNo buf i))
    .ok (done, j, UInt32.ofNat (firstAckNo buf i) :: rest)) := by
  rw [decodeChecked, if_neg (by rw [Bool.toNat_true]; omega), slice_ok (by omega) (by omega), ok_bind, if_neg (by decide),
    index_ok hl, ok_bind, if_neg (not_lt.mpr hle)]
  rfl

lemma fits_runs_iff : Fits buf true i ↔
    nextFrom (firstAckNo buf i) (readRuns (buf.take (i + 5 + (l.toNat + 1))) (l.toNat + 1 + 1) (i + 5)) < 2 ^ 32 := by
  refine ⟨fun h => h rfl l hl hle, fun h _ l' hl' _ => ?_⟩
  cases hl.symm.trans hl'
  exact h

lemma decode_runs_fits_iff :
    ∃ done j acks, (decode buf true i : Outcome Empty _) = .ok (done, j, acks) ∧ j ≤ buf.length ∧
      (∀ a ∈ acks.head?, a.toNat = firstAckNo buf i) ∧
      ((decodeChecked buf true i : Outcome Empty _) = .ok (done, j, acks) ∧ acks.Pairwise (· < ·) ↔ Fits buf true i) := by
  have hfirst : firstAckNo buf i < 2 ^ 32 := firstAckNo_lt (by omega)
  have hlen : (buf.take (i + 5 + (l.toNat + 1))).length = i + 5 + (l.toNat + 1) := List.length_take_of_le hle
  obtain ⟨done, j, hj, hwrap, hchecked⟩ : ∃ done j, j ≤ (buf.take (i + 5 + (l.toNat + 1))).length ∧ _ :=
    decodeRuns_both (c := firstAckNo buf i) (show i + 5 ≤ _ by omega) (show _ < l.toNat + 1 + 1 by omega)
  rw [decode_runs hl hle, decodeChecked_runs hl hle, fits_runs_iff hl hle, hwrap, hchecked hfirst]
  generalize readRuns (buf.take (i + 5 + (l.toNat + 1))) (l.toNat + 1 + 1) (i + 5) = rs
  refine ⟨done, j, (firstAckNo buf i :: acksFrom (firstAckNo buf i) rs).map UInt32.ofNat, ok_bind _ _, by omega, ?_, ?_⟩
  · intro a ha
    cases ha
    exact toNat_ofNat hfirst
  · split_ifs with hnext
    · refine ⟨fun _ => hnext, fun _ => ⟨ok_bind _ _, map_ofNat_sorted ?_ ?_⟩⟩
      · exact List.pairwise_cons.mpr ⟨fun a ha => (mem_acksFrom ha).1, acksFrom_sorted _ _⟩
      · rw [List.forall_mem_cons]
        exact ⟨hfirst, fun a ha => (mem_acksFrom ha).2.trans_lt hnext⟩
    · rw [panic_bind]
      exact ⟨fun h => absurd h.1 (panic_ne_ok _ _), fun h => absurd h hnext⟩

end Runs

/-- For every buffer the decoder returns with its index inside. Its arithmetic stays within 32 bits, and the numbers that
it hands over are in order from the first one on, if and only if the numbers of the frame fit. -/
theorem decode_fits_iff (isRun : Bool) (hi : i ≤ buf.length) :
    ∃ done j acks, (decode buf isRun i : Outcome Empty _) = .ok (done, j, acks) ∧ j ≤ buf.length ∧
      (∀ a ∈ acks.head?, a.toNat = firstAckNo buf i) ∧
      ((decodeChecked buf isRun i : Outcome Empty _) = .ok (done, j, acks) ∧ acks.Pairwise (· < ·) ↔ Fits buf isRun i) := by
  by_cases hshort : i + 4 + isRun.toNat > buf.length
  · refine ⟨false, i, [], ?_, hi, by simp, ?_⟩
    · rw [decode, if_pos hshort]
    · rw [decodeChecked, if_pos hshort]
      refine ⟨fun _ hrun l hl => ?_, fun _ => ⟨rfl, List.Pairwise.nil⟩⟩
      have := (List.getElem?_eq_some_iff.mp hl).1
      rw [hrun, Bool.toNat_true] at hshort
      omega
  · have hslice : (slice buf i (i + 4) : Outcome Empty _) = .ok ((buf.take (i + 4)).drop i) := slice_ok (by omega) (by omega)
    have hfirst : firstAckNo buf i < 2 ^ 32 := firstAckNo_lt (by omega)
    cases isRun with
    | false =>
      refine ⟨true, i + 4, [UInt32.ofNat (firstAckNo buf i)], ?_, by omega, by simp [toNat_ofNat hfirst], ?_⟩
      · rw [decode, if_neg hshort, hslice]
        rfl
      · rw [decodeChecked, if_neg hshort, hslice]
        exact ⟨fun _ h => (by cases h), fun _ => ⟨rfl, List.pairwise_singleton _ _⟩⟩
    | true =>
      have hlt : i + 4 < buf.length := by
        rw [Bool.toNat_true] at hshort
        omega
      obtain ⟨l, hl⟩ : ∃ l, buf[i + 4]? = some l := ⟨_, List.getElem?_eq_getElem hlt⟩
      by_cases hlong : i + 5 + (l.toNat + 1) > buf.length
      · have hindex : (index buf (i + 4) : Outcome Empty _) = .ok l := index_ok hl
        refine ⟨false, i + 5, [UInt32.ofNat (firstAckNo buf i)], ?_, hlt, by simp [toNat_ofNat hfirst], ?_⟩
        · rw [decode, if_neg hshort, hslice, ok_bind, if_neg (by decide), hindex, ok_bind, if_pos hlong]
          rfl
        · rw [decodeChecked, if_neg hshort, hslice, ok_bind, if_neg (by decide), hindex, ok_bind, if_pos hlong]
          refine ⟨fun _ _ l' hl' hle => ?_, fun _ => ⟨rfl, List.pairwise_singleton _ _⟩⟩
          cases hl.symm.trans hl'
          omega
      · exact decode_runs_fits_iff hl (not_lt.mp hlong)

theorem decode_fits_small : ∃ done j acks, (decode [0, 0, 0, 3, 0, 1] true 0 : Outcome Empty _) = .ok (done, j, acks) ∧ j ≤ 6 ∧
    acks.Pairwise (· < ·) := by
  have hi : 0 ≤ [(0 : UInt8), 0, 0, 3, 0, 1].length := Nat.zero_le _
  obtain ⟨done, j, acks, hrun, hj, -, hiff⟩ := decode_fits_iff true hi
  refine ⟨done, j, acks, hrun, hj, (hiff.mpr fun _ l hl _ => ?_).2⟩
  cases hl
  decide +kernel

/-- One number behind the largest one. -/
theorem wraps_to_zero : (decode [255, 255, 255, 255, 0, 1] true 0 : Outcome Empty _) = .ok (true, 6, [4294967295, 0]) ∧
    (decodeChecked [255, 255, 255, 255, 0, 1] true 0 : Outcome Empty _) = .panic .arith := by
  constructor <;> rfl

end Decode

end Pqsnet.Session.AckRuns
