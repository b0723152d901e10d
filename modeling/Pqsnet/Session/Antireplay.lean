import Pqsnet.Checked.Ends
import Pqsnet.Checked.Highest
import Pqsnet.Session.State

/-! The filter that lets every counter pass at most once. -/

namespace Pqsnet.Session

open Checked Outcome

variable {ε : Type}

/-- A counter of a packet, a word of 32 bits. -/
abbrev Counter : Type := Fin (2 ^ 32)

structure Antireplay (L : ℕ) where
  slots : List Counter
  length_eq : slots.length = L

namespace Antireplay

def default (L : ℕ) : Antireplay L := ⟨List.replicate L 0, List.length_replicate⟩

/-- Counters are mapped to slots in reverse bit order. A word cannot be shifted by as many bits as it has. -/
def slot (L : ℕ) (counter : Counter) : Outcome ε ℕ := do
  let shift ← sub 32 L.log2
  if shift < 32 then .ok ((BitVec.ofFin counter).reverse >>> shift).toNat else .panic .arith

variable {L : ℕ}

def check (a : Antireplay L) (counter : Counter) : Outcome ε Bool := do
  let i ← slot L counter
  let preCounter ← SessionInner.entryAt a.slots i
  .ok (preCounter < counter)

def update (a : Antireplay L) (counter : Counter) : Outcome ε (Bool × Antireplay L) := do
  let i ← slot L counter
  let preCounter ← SessionInner.entryAt a.slots i
  .ok (preCounter < counter, ⟨a.slots.set i (max preCounter counter), List.length_set.trans a.length_eq⟩)

inductive Op
  | update (counter : Counter)
  | check (counter : Counter)
  deriving DecidableEq

/-- Either call has one atomic operation, so that calls of several threads are a sequence of these. -/
def step (a : Antireplay L) : Op → Outcome ε (Bool × Antireplay L)
  | .update counter => a.update counter
  | .check counter => do
    let fresh ← a.check counter
    .ok (fresh, a)

def run : List Op → Antireplay L → Outcome ε (List Bool × Antireplay L)
  | [], a => .ok ([], a)
  | op :: ops, a => do
    let (fresh, a) ← a.step op
    let (answers, a) ← run ops a
    .ok (fresh :: answers, a)

/-- The counters that were passed to `update`. -/
def passed (ops : List Op) : List Counter := ops.filterMap fun
  | .update counter => some counter
  | .check _ => none

lemma passed_update (c : Counter) : passed [.update c] = [c] := rfl

lemma passed_check (c : Counter) : passed [.check c] = [] := rfl

lemma passed_append (ops ops' : List Op) : passed (ops ++ ops') = passed ops ++ passed ops' := List.filterMap_append

def Op.counter : Op → Counter
  | .update counter => counter
  | .check counter => counter

/-- No counter as high as `c` was passed that is the same modulo the number of slots. -/
def Unseen (L : ℕ) (us : List Counter) (c : Counter) : Prop := 0 < c ∧ ∀ u ∈ us, u.val % L = c.val % L → u < c

instance (us : List Counter) (c : Counter) : Decidable (Unseen L us c) := inferInstanceAs (Decidable (_ ∧ _))

/-- What a filter with `L` slots does on any sequence of calls. -/
structure Filters (ε : Type) (L : ℕ) : Prop where
  returns : ∀ ops, ∃ answers a, (run ops (default L) : Outcome ε _) = .ok (answers, a) ∧ answers.length = ops.length
  once : ∀ ops answers a, (run ops (default L) : Outcome ε _) = .ok (answers, a) → ∀ (c : Counter) (i j : ℕ),
    ops[i]? = some (.update c) → ops[j]? = some (.update c) → answers[i]? = some true → answers[j]? = some true → i = j
  accepts : ∀ ops answers a, (run ops (default L) : Outcome ε _) = .ok (answers, a) → ∀ (c : Counter) (i : ℕ),
    ops[i]? = some (.update c) → (answers[i]? = some true ↔ Unseen L (passed (ops.take i)) c)
  window : ∀ ops answers a, (run ops (default L) : Outcome ε _) = .ok (answers, a) → ∀ (c : Counter) (i : ℕ),
    ops[i]? = some (.update c) → 0 < c → c ∉ passed (ops.take i) → (∀ u ∈ passed (ops.take i), u.val < c.val + L) →
    answers[i]? = some true
  check_harmless : ∀ ops ops' c answers a, (run (ops ++ ops') (default L) : Outcome ε _) = .ok (answers, a) →
    ∃ b answers₁ answers₂, answers = answers₁ ++ answers₂ ∧ answers₁.length = ops.length ∧
      (run (ops ++ .check c :: ops') (default L) : Outcome ε _) = .ok (answers₁ ++ b :: answers₂, a)
  check_false : ∀ ops answers a, (run ops (default L) : Outcome ε _) = .ok (answers, a) → ∀ (c : Counter) (i j : ℕ), i < j →
    ops[i]? = some (.check c) → answers[i]? = some false → ops[j]? = some (.update c) → answers[j]? = some false

section Run

variable {k : ℕ} {a : Antireplay (2 ^ k)} {us : List Counter} {c : Counter}

def slotOf (k : ℕ) (c : Counter) : ℕ := reverseLast k (BitVec.ofFin c)

lemma slotOf_lt (hk : k ≤ 32) : slotOf k c < 2 ^ k := reverseLast_lt hk

lemma slotOf_eq_iff {u : Counter} (hk : k ≤ 32) : slotOf k u = slotOf k c ↔ u.val % 2 ^ k = c.val % 2 ^ k := reverseLast_eq_iff hk

lemma slot_ok (hpos : 1 ≤ k) (hk : k ≤ 32) (c : Counter) : (slot (2 ^ k) c : Outcome ε _) = .ok (slotOf k c) := by
  rw [slot, Nat.log2_two_pow, sub_ok hk, ok_bind, if_pos (by omega)]
  rfl

/-- Every slot has the highest counter that was passed to it. -/
def Tracks (a : Antireplay (2 ^ k)) (us : List Counter) : Prop := ∀ i, i < 2 ^ k → a.slots[i]? = some (highest (slotOf k) 0 us i)

lemma Tracks.entry (ht : a.Tracks us) (hk : k ≤ 32) (c : Counter) :
    (SessionInner.entryAt a.slots (slotOf k c) : Outcome ε _) = .ok (highest (slotOf k) 0 us (slotOf k c)) := by
  rw [SessionInner.entryAt, ht _ (slotOf_lt hk)]

lemma highest_lt_iff_unseen (hk : k ≤ 32) : highest (slotOf k) 0 us (slotOf k c) < c ↔ Unseen (2 ^ k) us c := by
  simp only [highest_lt_iff, slotOf_eq_iff hk, Unseen]

lemma Tracks.step (ht : a.Tracks us) (hpos : 1 ≤ k) (hk : k ≤ 32) (op : Op) : ∃ a' : Antireplay (2 ^ k),
    (a.step op : Outcome ε _) = .ok (decide (Unseen (2 ^ k) us op.counter), a') ∧ a'.Tracks (us ++ passed [op]) ∧
      (∀ c, op = .check c → a' = a) := by
  have hfresh : ∀ c, decide (highest (slotOf k) 0 us (slotOf k c) < c) = decide (Unseen (2 ^ k) us c) :=
    fun c => decide_eq_decide.mpr (highest_lt_iff_unseen hk)
  cases op with
  | check c =>
    refine ⟨a, ?_, by rwa [passed_check, List.append_nil], fun _ _ => rfl⟩
    rw [Antireplay.step, check, slot_ok hpos hk, ok_bind, ht.entry hk, ok_bind, ok_bind, hfresh]
    rfl
  | update c =>
    refine ⟨⟨a.slots.set (slotOf k c) (max (highest (slotOf k) 0 us (slotOf k c)) c), List.length_set.trans a.length_eq⟩, ?_,
      fun i hi => ?_, fun c h => by cases h⟩
    · rw [Antireplay.step, update, slot_ok hpos hk, ok_bind, ht.entry hk, ok_bind, hfresh]
      rfl
    · have hlt := slotOf_lt (c := c) hk
      rw [passed_update, highest_concat, List.getElem?_set, a.length_eq]
      split_ifs with heq
      · rw [heq]
      · exact ht i hi

lemma Tracks.run (ht : a.Tracks us) (hpos : 1 ≤ k) (hk : k ≤ 32) (ops : List Op) : ∃ answers, ∃ a' : Antireplay (2 ^ k),
    (run ops a : Outcome ε _) = .ok (answers, a') ∧ answers.length = ops.length ∧ a'.Tracks (us ++ passed ops) ∧
      ∀ i op, ops[i]? = some op → answers[i]? = some (decide (Unseen (2 ^ k) (us ++ passed (ops.take i)) op.counter)) := by
  induction ops generalizing a us with
  | nil =>
    refine ⟨[], a, rfl, rfl, by rwa [passed, List.filterMap_nil, List.append_nil], fun i op hop => ?_⟩
    cases hop
  | cons op ops ih =>
    obtain ⟨a₁, hstep, ht₁, -⟩ := ht.step (ε := ε) hpos hk op
    obtain ⟨answers, a', hrun, hlen, ht', hanswers⟩ := ih ht₁
    have happend : ∀ ops, us ++ passed (op :: ops) = us ++ passed [op] ++ passed ops := by
      intro ops
      rw [List.append_assoc, ← passed_append, List.singleton_append]
    refine ⟨decide (Unseen (2 ^ k) us op.counter) :: answers, a', ?_, congrArg (· + 1) hlen, by rwa [happend], fun i op' hop => ?_⟩
    · rw [Antireplay.run, hstep, ok_bind]
      dsimp only
      rw [hrun, ok_bind]
    · cases i with
      | zero =>
        obtain rfl : op = op' := Option.some.inj hop
        rw [List.take_zero, passed, List.filterMap_nil, List.append_nil]
        rfl
      | succ i =>
        rw [List.take_succ_cons, happend]
        exact hanswers i op' hop

lemma tracks_default : (default (2 ^ k)).Tracks [] := by
  intro i hi
  rw [default, List.getElem?_replicate, if_pos hi]
  rfl

lemma run_default {ops : List Op} {answers : List Bool} (hpos : 1 ≤ k) (hk : k ≤ 32)
    (h : (run ops (default (2 ^ k)) : Outcome ε _) = .ok (answers, a)) : answers.length = ops.length ∧ a.Tracks (passed ops) ∧
      ∀ i op, ops[i]? = some op → answers[i]? = some (decide (Unseen (2 ^ k) (passed (ops.take i)) op.counter)) := by
  obtain ⟨answers', a', hrun, hlen, ht, hanswers⟩ := tracks_default.run (ε := ε) hpos hk ops
  cases h.symm.trans hrun
  exact ⟨hlen, ht, hanswers⟩

lemma mem_passed_take {ops : List Op} {i j : ℕ} (hi : ops[i]? = some (.update c)) (hij : i < j) : c ∈ passed (ops.take j) := by
  refine List.mem_filterMap.mpr ⟨.update c, List.mem_of_getElem? (i := i) ?_, rfl⟩
  rw [List.getElem?_take_of_lt hij, hi]

lemma Unseen.mono {L : ℕ} {us us' : List Counter} (h : Unseen L us' c) (hus : us ⊆ us') : Unseen L us c :=
  ⟨h.1, fun u hu => h.2 u (hus hu)⟩

lemma unseen_of_window (hpos : 0 < c) (hnew : c ∉ us) (hlt : ∀ u ∈ us, u.val < c.val + L) : Unseen L us c := by
  refine ⟨hpos, fun u hu hmod => ?_⟩
  by_contra hle
  have hlt' : c.val < u.val := lt_of_le_of_ne (not_lt.mp hle) fun h => hnew (Fin.ext h ▸ hu)
  -- they are the same modulo `L` and differ by less
  have hdvd : L ∣ u.val - c.val := (Nat.modEq_iff_dvd' hlt'.le).mp hmod.symm
  have hsmall := hlt u hu
  exact absurd (Nat.eq_zero_of_dvd_of_lt hdvd (by omega)) (by omega)

lemma run_append {L : ℕ} (ops ops' : List Op) (a : Antireplay L) : (run (ops ++ ops') a : Outcome ε _) =
    run ops a >>= fun r => run ops' r.2 >>= fun r' => .ok (r.1 ++ r'.1, r'.2) := by
  induction ops generalizing a with
  | nil => exact (bind_pure _).symm
  | cons op ops ih =>
    rw [List.cons_append, run, run]
    cases hstep : (a.step op : Outcome ε _) with
    | error e => rfl
    | ok r =>
      obtain ⟨fresh, a'⟩ := r
      rw [ok_bind, ok_bind]
      dsimp only
      rw [ih, bind_assoc, bind_assoc]
      refine congrArg (run ops a' >>= ·) (funext fun r => ?_)
      rw [bind_assoc, ok_bind]
      rfl

lemma filters (hpos : 1 ≤ k) (hk : k ≤ 32) : Filters ε (2 ^ k) where
  returns ops := by
    obtain ⟨answers, a, hrun, hlen, -⟩ := tracks_default.run (ε := ε) hpos hk ops
    exact ⟨answers, a, hrun, hlen⟩
  once ops answers a h c i j hi hj hansi hansj := by
    obtain ⟨-, -, hanswers⟩ := run_default hpos hk h
    have hnot : ∀ i j : ℕ, ops[i]? = some (.update c) → ops[j]? = some (.update c) → answers[j]? = some true → ¬ i < j := by
      intro i j hi hj hansj hij
      rw [hanswers j _ hj, Option.some_inj, decide_eq_true_eq] at hansj
      exact lt_irrefl c (hansj.2 c (mem_passed_take hi hij) rfl)
    exact le_antisymm (not_lt.mp (hnot j i hj hi hansi)) (not_lt.mp (hnot i j hi hj hansj))
  accepts ops answers a h c i hi := by
    obtain ⟨-, -, hanswers⟩ := run_default hpos hk h
    rw [hanswers i _ hi, Option.some_inj, decide_eq_true_eq]
    rfl
  window ops answers a h c i hi hc hnew hlt := by
    obtain ⟨-, -, hanswers⟩ := run_default hpos hk h
    rw [hanswers i _ hi, Option.some_inj, decide_eq_true_eq]
    exact unseen_of_window hc hnew hlt
  check_harmless ops ops' c answers a h := by
    rw [run_append] at h
    obtain ⟨⟨answers₁, a₁⟩, hrun₁, h⟩ := bind_eq_ok.mp h
    obtain ⟨⟨answers₂, a₂⟩, hrun₂, h⟩ := bind_eq_ok.mp h
    cases h
    obtain ⟨hlen, ht, -⟩ := run_default hpos hk hrun₁
    obtain ⟨a', hstep, -, hsame⟩ := ht.step (ε := ε) hpos hk (.check c)
    obtain rfl := hsame c rfl
    refine ⟨decide (Unseen (2 ^ k) (passed ops) c), answers₁, answers₂, rfl, hlen, ?_⟩
    rw [run_append, hrun₁, ok_bind]
    dsimp only at hrun₂ ⊢
    rw [run, hstep, ok_bind]
    dsimp only
    rw [hrun₂, ok_bind, ok_bind]
    rfl
  check_false ops answers a h c i j hij hi hansi hj := by
    obtain ⟨-, -, hanswers⟩ := run_default hpos hk h
    rw [hanswers i _ hi, Option.some_inj, decide_eq_false_iff_not] at hansi
    rw [hanswers j _ hj, Option.some_inj, decide_eq_false_iff_not]
    refine fun hunseen => hansi (Unseen.mono hunseen fun u hu => ?_)
    exact (List.Sublist.filterMap _ (List.take_sublist_take_left hij.le)).subset hu

lemma slot_panics (h : ¬ (1 ≤ k ∧ k ≤ 32)) (c : Counter) : (slot (2 ^ k) c : Outcome ε _) = panic .arith := by
  rw [slot, Nat.log2_two_pow]
  by_cases hk : k ≤ 32
  · rw [sub_ok hk, ok_bind, if_neg (by omega)]
  · rw [sub, if_neg hk]
    rfl

/-- Over any calls in any order, the filter works if and only if the index of a slot fits into a counter: with a single slot
or more than `2 ^ 32` of them, no counter can be looked up. -/
theorem filters_iff : Filters ε (2 ^ k) ↔ 1 ≤ k ∧ k ≤ 32 := by
  refine ⟨fun hf => ?_, fun h => filters h.1 h.2⟩
  by_contra hk
  obtain ⟨answers, a, hrun, -⟩ := hf.returns [.update 1]
  rw [run, step, update, slot_panics hk] at hrun
  cases hrun

/-- The index of a slot is computed by shifting by a negative number of bits. -/
theorem not_filters_two_pow_33 : (update (default (2 ^ 33)) 1 : Outcome Unit _) = panic .arith ∧ ¬ Filters Unit (2 ^ 33) := by
  have hpanic : (update (default (2 ^ 33)) 1 : Outcome Unit _) = panic .arith := by
    rw [update, slot_panics (by decide)]
    rfl
  refine ⟨hpanic, fun hf => ?_⟩
  obtain ⟨answers, a, hrun, -⟩ := hf.returns [.update 1]
  rw [run, step, hpanic] at hrun
  cases hrun

end Run

end Antireplay

end Pqsnet.Session
