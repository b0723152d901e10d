import Mathlib.Tactic

/-! Outcomes of code that may panic: a value, an error handed to the caller, or a panic. -/

namespace Pqsnet.Checked

inductive Panic
  | arith
  | index
  | slice
  | copyLength
  | unwrap
  | assertion
  | capacity
  | unreachable
  | loopBound
  deriving DecidableEq, Repr

inductive Stop (ε : Type)
  | panic (p : Panic)
  | err (e : ε)
  deriving DecidableEq, Repr

def Stop.map {ε ε' : Type} (f : ε → ε') : Stop ε → Stop ε'
  | .panic p => .panic p
  | .err e => .err (f e)

/-- A panic unwinds through every caller, while an error is a value the caller may inspect. -/
abbrev Outcome (ε α : Type) := Except (Stop ε) α

namespace Outcome

variable {ε ε' α β : Type}

def panic (p : Panic) : Outcome ε α := .error (.panic p)

def err (e : ε) : Outcome ε α := .error (.err e)

/-- The computation comes back to its caller, with a value or with an error. -/
def Returns (x : Outcome ε α) : Prop := ∀ p, x ≠ panic p

def mapErr (f : ε → ε') : Outcome ε α → Outcome ε' α
  | .ok a => .ok a
  | .error s => .error (s.map f)

def okOr (o : Option α) (e : ε) : Outcome ε α :=
  match o with
  | some a => .ok a
  | none => err e

def unwrap (o : Option α) : Outcome ε α :=
  match o with
  | some a => .ok a
  | none => panic .unwrap

/-- The result as a value the caller looks at. A panic still unwinds. -/
def attempt (x : Outcome ε α) : Outcome ε' (Except ε α) :=
  match x with
  | .ok a => .ok (.ok a)
  | .error (.err e) => .ok (.error e)
  | .error (.panic p) => panic p

-- Not proved by `rfl`, so that rewriting with these leaves proofs the kernel need not unfold.
@[simp] lemma ok_bind (a : α) (f : α → Outcome ε β) : (Except.ok a >>= f) = f a := by
  cases h : f a <;> exact h
@[simp] lemma error_bind (s : Stop ε) (f : α → Outcome ε β) :
    ((Except.error s : Outcome ε α) >>= f) = .error s := by
  simp only [bind, Except.bind]
@[simp] lemma err_bind (e : ε) (f : α → Outcome ε β) : ((err e : Outcome ε α) >>= f) = err e := by
  simp only [err, bind, Except.bind]
@[simp] lemma panic_bind (p : Panic) (f : α → Outcome ε β) :
    ((panic p : Outcome ε α) >>= f) = panic p := by
  simp only [panic, bind, Except.bind]
@[simp] lemma pure_eq (a : α) : (pure a : Outcome ε α) = .ok a := by
  simp only [pure, Except.pure]

@[simp] lemma ok_inj {a b : α} : (Except.ok a : Outcome ε α) = .ok b ↔ a = b := by
  constructor
  · intro h; cases h; rfl
  · rintro rfl; rfl

@[simp] lemma err_ne_ok (e : ε) (a : α) : (err e : Outcome ε α) ≠ .ok a := by simp [err]
@[simp] lemma panic_ne_ok (p : Panic) (a : α) : (panic p : Outcome ε α) ≠ .ok a := by simp [panic]
@[simp] lemma ok_ne_panic (p : Panic) (a : α) : (Except.ok a : Outcome ε α) ≠ panic p := by
  simp [panic]
@[simp] lemma err_ne_panic (p : Panic) (e : ε) : (err e : Outcome ε α) ≠ panic p := by
  simp [panic, err]

@[simp] lemma mapErr_ok (f : ε → ε') (a : α) : mapErr f (.ok a : Outcome ε α) = .ok a := rfl
@[simp] lemma mapErr_err (f : ε → ε') (e : ε) : mapErr f (err e : Outcome ε α) = err (f e) := rfl
@[simp] lemma mapErr_panic (f : ε → ε') (p : Panic) :
    mapErr f (panic p : Outcome ε α) = panic p := rfl

@[simp] lemma okOr_some (a : α) (e : ε) : okOr (some a) e = .ok a := rfl
@[simp] lemma okOr_none (e : ε) : okOr (none : Option α) e = err e := rfl
@[simp] lemma unwrap_some (a : α) : unwrap (some a) = (.ok a : Outcome ε α) := rfl
@[simp] lemma unwrap_none : unwrap (none : Option α) = (panic .unwrap : Outcome ε α) := rfl

lemma exists_of_map {x : Outcome ε α} {f : α → β} {b : β} (h : x.toOption.map f = some b) : ∃ a, x = .ok a ∧ f a = b := by
  cases x with
  | ok a => exact ⟨a, rfl, Option.some.inj h⟩
  | error st => cases h

lemma bind_eq_ok {x : Outcome ε α} {f : α → Outcome ε β} {b : β} :
    (x >>= f) = .ok b ↔ ∃ a, x = .ok a ∧ f a = .ok b := by
  cases x with
  | ok a => simp
  | error s =>
    constructor
    · intro h; cases h
    · rintro ⟨_, h, _⟩; cases h

@[simp] lemma mapErr_error (f : ε → ε') (s : Stop ε) :
    mapErr f (.error s : Outcome ε α) = .error (s.map f) := by
  simp only [mapErr]

lemma mapErr_bind (g : ε → ε') (x : Outcome ε α) (f : α → Outcome ε β) :
    mapErr g (x >>= f) = mapErr g x >>= fun a => mapErr g (f a) := by
  rcases x with (p | e) | a
  · exact (panic_bind p _).symm
  · exact (err_bind (g e) _).symm
  · rw [ok_bind, mapErr_ok, ok_bind]

lemma mapErr_eq_ok {f : ε → ε'} {x : Outcome ε α} {a : α} : mapErr f x = .ok a ↔ x = .ok a := by
  rcases x with s | a' <;> simp

lemma attempt_cases {x : Outcome ε α} {r : Except ε α} (h : (attempt x : Outcome ε' _) = .ok r) :
    (∃ a, x = .ok a ∧ r = .ok a) ∨ ∃ e, x = err e ∧ r = .error e := by
  rcases x with (p | e) | a
  · cases h
  · exact .inr ⟨e, rfl, (ok_inj.mp h).symm⟩
  · exact .inl ⟨a, rfl, (ok_inj.mp h).symm⟩

lemma okOr_eq_ok {o : Option α} {e : ε} {a : α} : okOr o e = .ok a ↔ o = some a := by
  cases o <;> simp

@[simp] lemma returns_ok (a : α) : Returns (.ok a : Outcome ε α) := by intro p; simp
@[simp] lemma returns_err (e : ε) : Returns (err e : Outcome ε α) := by intro p; simp
@[simp] lemma not_returns_panic (p : Panic) : ¬ Returns (panic p : Outcome ε α) := by
  intro h; exact h p rfl

lemma returns_bind {x : Outcome ε α} {f : α → Outcome ε β} :
    Returns (x >>= f) ↔ Returns x ∧ ∀ a, x = .ok a → Returns (f a) := by
  rcases x with (p | e) | a
  · change Returns (panic p : Outcome ε β) ↔ Returns (panic p : Outcome ε α) ∧ _
    simp
  · change Returns (err e : Outcome ε β) ↔ Returns (err e : Outcome ε α) ∧ ∀ a, err e = .ok a → _
    simp
  · simp

@[simp] lemma returns_mapErr {f : ε → ε'} {x : Outcome ε α} : Returns (mapErr f x) ↔ Returns x := by
  rcases x with (p | e) | a
  · change Returns (panic p : Outcome ε' α) ↔ Returns (panic p : Outcome ε α)
    simp
  · change Returns (err (f e) : Outcome ε' α) ↔ Returns (err e : Outcome ε α)
    simp
  · simp

@[simp] lemma returns_okOr (o : Option α) (e : ε) : Returns (okOr o e) := by cases o <;> simp

end Outcome

/-- Subtraction on an unsigned machine word, checked for underflow. -/
def sub {ε : Type} (a b : ℕ) : Outcome ε ℕ := if b ≤ a then .ok (a - b) else .panic .arith

lemma sub_ok {ε : Type} {a b : ℕ} (h : b ≤ a) : (sub a b : Outcome ε ℕ) = .ok (a - b) := by
  simp [sub, h]

lemma sub_eq_ok {ε : Type} {a b c : ℕ} : (sub a b : Outcome ε ℕ) = .ok c ↔ b ≤ a ∧ a - b = c := by
  rw [sub]
  split_ifs with hle
  · exact ⟨fun h => ⟨hle, Except.ok.inj h⟩, fun h => congrArg Except.ok h.2⟩
  · exact ⟨fun h => (by cases h), fun h => absurd h.1 hle⟩

/-- Addition on a 64-bit machine word, checked for overflow. -/
def add {ε : Type} (a b : ℕ) : Outcome ε ℕ := if a + b < 2 ^ 64 then .ok (a + b) else .panic .arith

lemma add_ok {ε : Type} {a b : ℕ} (h : a + b < 2 ^ 64) : (add a b : Outcome ε ℕ) = .ok (a + b) := by
  simp only [add, if_pos h]

lemma add_eq_ok {ε : Type} {a b c : ℕ} : (add a b : Outcome ε ℕ) = .ok c ↔ a + b < 2 ^ 64 ∧ a + b = c := by
  rw [add]
  split_ifs with hlt
  · exact ⟨fun h => ⟨hlt, Except.ok.inj h⟩, fun h => congrArg Except.ok h.2⟩
  · exact ⟨fun h => (by cases h), fun h => absurd h.1 hlt⟩

lemma eq_of_add_eq_ok {ε : Type} {a b c : ℕ} (h : (add a b : Outcome ε ℕ) = .ok c) : c = a + b :=
  (add_eq_ok.mp h).2.symm

end Pqsnet.Checked
