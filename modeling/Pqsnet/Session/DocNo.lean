import Pqsnet.Session.Varint

/-! Numbers of documents that are packed from a counter, an index and two bits for the variant of the channel. -/

namespace Pqsnet.Session

open Checked Outcome

variable {ε : Type}

inductive ChannelVariants
  | none
  | forward
  | backward
  | unbound
  deriving DecidableEq

def ChannelVariants.toNat : ChannelVariants → ℕ
  | none => 0b00
  | forward => 0b01
  | backward => 0b10
  | unbound => 0b11

structure DocNo where
  no : ℕ
  deriving DecidableEq

namespace DocNo

def max : ℕ := varintMax

def new (debugAssertions : Bool) (counter index : ℕ) (variant : ChannelVariants) (maxDocs : ℕ) : Outcome ε DocNo :=
  if debugAssertions ∧ ¬ index < maxDocs then .panic .assertion
  else if counter * maxDocs < 2 ^ 64 then do
    let sum ← add (counter * maxDocs) index
    .ok ⟨(sum <<< 2) % 2 ^ 64 ||| variant.toNat⟩
  else .panic .arith

def counter (d : DocNo) (maxDocs : ℕ) : Outcome ε ℕ := if maxDocs = 0 then .panic .arith else .ok ((d.no >>> 2) % maxDocs)

def index (d : DocNo) (maxDocs : ℕ) : Outcome ε ℕ := if maxDocs = 0 then .panic .arith else .ok ((d.no >>> 2) / maxDocs)

def variantNo (d : DocNo) : ℕ := d.no &&& 0b11

def variant (d : DocNo) : Outcome ε ChannelVariants :=
  match d.variantNo with
  | 0b00 => .ok .none
  | 0b01 => .ok .forward
  | 0b10 => .ok .backward
  | 0b11 => .ok .unbound
  | _ => .panic .unreachable

/-- What is packed of a counter and an index. -/
def packed (counter index : ℕ) (variant : ChannelVariants) (maxDocs : ℕ) : ℕ := (counter * maxDocs + index) * 4 + variant.toNat

variable {counter index maxDocs n : ℕ} {variant : ChannelVariants} {debugAssertions : Bool} {d : DocNo}

lemma toNat_lt (variant : ChannelVariants) : variant.toNat < 4 := by
  cases variant <;> decide

lemma shift_or (n : ℕ) (variant : ChannelVariants) : (n <<< 2) % 2 ^ 64 ||| variant.toNat = n % 2 ^ 62 * 4 + variant.toNat := by
  have hshift : (n <<< 2) % 2 ^ 64 = (n % 2 ^ 62) <<< 2 := by
    rw [Nat.shiftLeft_eq, Nat.shiftLeft_eq]
    omega
  rw [hshift, ← Nat.shiftLeft_add_eq_or_of_lt (toNat_lt variant), Nat.shiftLeft_eq]

lemma shiftRight_packed (n : ℕ) (variant : ChannelVariants) : (n * 4 + variant.toNat) >>> 2 = n := by
  have := toNat_lt variant
  rw [Nat.shiftRight_eq_div_pow]
  omega

lemma variant_packed (n : ℕ) (variant : ChannelVariants) : (DocNo.variant ⟨n * 4 + variant.toNat⟩ : Outcome ε _) = .ok variant := by
  have hno : variantNo ⟨n * 4 + variant.toNat⟩ = variant.toNat := by
    have := toNat_lt variant
    rw [variantNo, show (0b11 : ℕ) = 2 ^ 2 - 1 from rfl, Nat.and_two_pow_sub_one_eq_mod]
    dsimp only
    omega
  rw [DocNo.variant, hno]
  cases variant <;> rfl

lemma exists_packed (d : DocNo) : ∃ variant : ChannelVariants, d = ⟨(d.no >>> 2) * 4 + variant.toNat⟩ := by
  have hcases : d.no % 4 = 0 ∨ d.no % 4 = 1 ∨ d.no % 4 = 2 ∨ d.no % 4 = 3 := by omega
  have hsplit (variant : ChannelVariants) (h : d.no % 4 = variant.toNat) : d = ⟨(d.no >>> 2) * 4 + variant.toNat⟩ := by
    rw [← h, Nat.shiftRight_eq_div_pow, Nat.div_add_mod']
  obtain h | h | h | h := hcases
  · exact ⟨.none, hsplit _ h⟩
  · exact ⟨.forward, hsplit _ h⟩
  · exact ⟨.backward, hsplit _ h⟩
  · exact ⟨.unbound, hsplit _ h⟩

lemma new_eq_ok_iff : (new debugAssertions counter index variant maxDocs : Outcome ε _) = .ok d ↔
    (debugAssertions → index < maxDocs) ∧ counter * maxDocs + index < 2 ^ 64 ∧
      d = ⟨(counter * maxDocs + index) % 2 ^ 62 * 4 + variant.toNat⟩ := by
  rw [new]
  split_ifs with hassert hmul
  · simp only [panic_ne_ok, false_iff]
    exact fun h => hassert.2 (h.1 hassert.1)
  · have hindex : debugAssertions → index < maxDocs := fun hd => by
      by_contra h
      exact hassert ⟨hd, h⟩
    rw [add]
    split_ifs with hadd
    · rw [ok_bind, shift_or, ok_inj, eq_comm]
      exact ⟨fun h => ⟨hindex, hadd, h⟩, fun h => h.2.2⟩
    · rw [panic_bind]
      simp only [panic_ne_ok, false_iff]
      exact fun h => hadd h.2.1
  · simp only [panic_ne_ok, false_iff]
    exact fun h => hmul (by omega)

lemma swap_modEq_iff {a r : ℕ} (hpos : 0 < maxDocs) :
    a * maxDocs + r ≡ r * maxDocs + a [MOD n] ↔ (maxDocs - 1) * r ≡ (maxDocs - 1) * a [MOD n] := by
  obtain ⟨m, rfl⟩ := Nat.exists_eq_add_of_lt hpos
  have hleft : a * (0 + m + 1) + r = m * a + (a + r) := by ring
  have hright : r * (0 + m + 1) + a = m * r + (a + r) := by ring
  rw [hleft, hright, zero_add, Nat.add_sub_cancel, Nat.ModEq.comm]
  exact ⟨fun h => h.add_right_cancel' _, fun h => h.add_right _⟩

/-- Counter and index come back in each other's place. So a counter and an index come back from their number if and only if they are
equal; and what a number is taken apart into is packed into the same number if and only if that makes no difference, up to what
is shifted out. -/
theorem round_trip_iff (debugAssertions : Bool) (hpos : 0 < maxDocs) :
    (∀ counter index variant, index < maxDocs → packed counter index variant maxDocs ≤ max →
      ∃ d, (new debugAssertions counter index variant maxDocs : Outcome Empty _) = .ok d ∧ d.variant = (.ok variant : Outcome Empty _) ∧
        (d.counter maxDocs = (.ok counter : Outcome Empty _) ∧ d.index maxDocs = (.ok index : Outcome Empty _) ↔ counter = index)) ∧
    ∀ d : DocNo, d.no ≤ max → ∃ counter index variant, d.counter maxDocs = (.ok counter : Outcome Empty _) ∧
      d.index maxDocs = (.ok index : Outcome Empty _) ∧ d.variant = (.ok variant : Outcome Empty _) ∧
      ((new debugAssertions counter index variant maxDocs : Outcome Empty _) = .ok d ↔
        (debugAssertions → index < maxDocs) ∧ counter * maxDocs + index < 2 ^ 64 ∧
          (maxDocs - 1) * counter ≡ (maxDocs - 1) * index [MOD 2 ^ 62]) := by
  have hmax : max = 2 ^ 62 - 1 := by decide
  refine ⟨fun counter index variant hindex hle => ?_, fun d hle => ?_⟩
  · have hsmall : counter * maxDocs + index < 2 ^ 62 := by
      rw [packed, hmax] at hle
      omega
    refine ⟨⟨(counter * maxDocs + index) * 4 + variant.toNat⟩, ?_, variant_packed _ _, ?_⟩
    · refine new_eq_ok_iff.mpr ⟨fun _ => hindex, by omega, ?_⟩
      rw [Nat.mod_eq_of_lt hsmall]
    · rw [DocNo.counter, DocNo.index, if_neg hpos.ne', if_neg hpos.ne', shiftRight_packed, ok_inj, ok_inj, Nat.add_comm,
        Nat.add_mul_mod_self_right, Nat.add_mul_div_right _ _ hpos, Nat.mod_eq_of_lt hindex, Nat.div_eq_of_lt hindex, Nat.zero_add]
      exact ⟨fun h => h.2, fun h => ⟨h.symm, h⟩⟩
  · obtain ⟨variant, hd⟩ := exists_packed d
    have hsmall : d.no >>> 2 < 2 ^ 62 := by
      rw [hmax] at hle
      rw [Nat.shiftRight_eq_div_pow]
      omega
    have hsame : d = ⟨(d.no >>> 2 % maxDocs * maxDocs + d.no >>> 2 / maxDocs) % 2 ^ 62 * 4 + variant.toNat⟩ ↔
        (maxDocs - 1) * (d.no >>> 2 % maxDocs) ≡ (maxDocs - 1) * (d.no >>> 2 / maxDocs) [MOD 2 ^ 62] := by
      rw [← swap_modEq_iff hpos, Nat.div_add_mod', Nat.ModEq, Nat.mod_eq_of_lt hsmall]
      constructor
      · intro h
        have hno := congrArg (fun d : DocNo => d.no >>> 2) h
        rwa [shiftRight_packed] at hno
      · intro h
        rwa [← h]
    refine ⟨_, _, variant, if_neg hpos.ne', if_neg hpos.ne', ?_, ?_⟩
    · rw [hd]
      exact variant_packed _ _
    · rw [new_eq_ok_iff, hsame]

theorem round_trip_equal : ∃ d, (new true 1 1 .forward 4 : Outcome Empty _) = .ok d ∧ d.variant = (.ok .forward : Outcome Empty _) ∧
    d.counter 4 = (.ok 1 : Outcome Empty _) ∧ d.index 4 = (.ok 1 : Outcome Empty _) := by
  have hpos : 0 < 4 := by decide
  obtain ⟨d, hnew, hvariant, hiff⟩ := (round_trip_iff true hpos).1 1 1 .forward (by decide) (by decide)
  exact ⟨d, hnew, hvariant, hiff.mpr rfl⟩

/-- The counter 1 and the index 2 of four. -/
theorem counter_index_swapped : (new true 1 2 .none 4 : Outcome Empty _) = .ok ⟨24⟩ ∧ packed 1 2 .none 4 ≤ max ∧
    DocNo.counter ⟨24⟩ 4 = (.ok 2 : Outcome Empty _) ∧ DocNo.index ⟨24⟩ 4 = (.ok 1 : Outcome Empty _) ∧
    (new true 2 1 .none 4 : Outcome Empty _) = .ok ⟨36⟩ := ⟨by rfl, by decide, by rfl, by rfl, by rfl⟩

end DocNo

end Pqsnet.Session
