import Pqsnet.Checked.Bytes

/-! Rules for how a computation ends: with a value, with an error, or in a panic. -/

namespace Pqsnet.Checked

namespace Outcome

variable {ε α β : Type} {S S' : Panic → Prop} {P P' : ε → Prop} {Q Q' : α → Prop} {R : β → Prop}

/-- A value is in `Q`, an error in `P` and a panic in `S`. -/
def Ends (S : Panic → Prop) (P : ε → Prop) (Q : α → Prop) : Outcome ε α → Prop
  | .ok a => Q a
  | .error (.err e) => P e
  | .error (.panic p) => S p

@[simp] lemma ends_ok {a : α} : Ends S P Q (.ok a) ↔ Q a := Iff.rfl
@[simp] lemma ends_err {e : ε} : Ends S P Q (err e) ↔ P e := Iff.rfl
@[simp] lemma ends_panic {p : Panic} : Ends S P Q (panic p) ↔ S p := Iff.rfl

lemma Ends.ok {x : Outcome ε α} {a : α} (h : Ends S P Q x) (hx : x = .ok a) : Q a := by
  rwa [hx, ends_ok] at h

lemma Ends.err {x : Outcome ε α} {e : ε} (h : Ends S P Q x) (hx : x = err e) : P e := by
  rwa [hx, ends_err] at h

lemma Ends.panic {x : Outcome ε α} {p : Panic} (h : Ends S P Q x) (hx : x = panic p) : S p := by
  rwa [hx, ends_panic] at h

lemma Ends.imp {x : Outcome ε α} (h : Ends S P Q x) (hP : ∀ e, P e → P' e) (hQ : ∀ a, Q a → Q' a) :
    Ends S P' Q' x := by
  rcases x with (p | e) | a
  · exact h
  · exact hP e h
  · exact hQ a h

lemma Ends.weaken {x : Outcome ε α} (h : Ends S P Q x) (hS : ∀ p, S p → S' p) : Ends S' P Q x := by
  rcases x with (p | e) | a
  · exact hS p h
  · exact h
  · exact h

lemma Ends.and_eq {x : Outcome ε α} (h : Ends S P Q x) : Ends S P (fun a => Q a ∧ x = .ok a) x := by
  rcases x with (p | e) | a
  · exact h
  · exact h
  · exact ⟨h, rfl⟩

lemma Ends.bind {x : Outcome ε α} {f : α → Outcome ε β} (h : Ends S P Q x) (hf : ∀ a, Q a → Ends S P R (f a)) :
    Ends S P R (x >>= f) := by
  rcases x with (p | e) | a
  · rw [error_bind]
    exact h
  · rw [error_bind]
    exact h
  · rw [ok_bind]
    exact hf a h

lemma Ends.bind_imp {x : Outcome ε α} {f : α → Outcome ε β} (h : Ends S P Q x) (hP : ∀ e, P e → P' e)
    (hf : ∀ a, Q a → Ends S P' R (f a)) : Ends S P' R (x >>= f) :=
  (h.imp hP fun _ ha => ha).bind hf

lemma Ends.attempt {ε' : Type} {R' : ε' → Prop} {x : Outcome ε α} (h : Ends S P Q x) :
    Ends S R' (fun r => (∃ a, r = .ok a ∧ Q a) ∨ ∃ e, r = .error e ∧ P e) (Outcome.attempt x : Outcome ε' _) := by
  rcases x with (p | e) | a
  · exact h
  · exact .inr ⟨e, rfl, h⟩
  · exact .inl ⟨a, rfl, h⟩

end Outcome

open Outcome

variable {ε : Type} {S : Panic → Prop} {P : ε → Prop} {a b i : ℕ}

lemma ends_sub {Q : ℕ → Prop} (hS : S .arith) (h : b ≤ a → Q (a - b)) : Ends S P Q (sub a b) := by
  unfold sub
  split
  · exact h ‹_›
  · exact hS

lemma ends_add {Q : ℕ → Prop} (hS : S .arith) (h : Q (a + b)) : Ends S P Q (add a b) := by
  unfold add
  split
  · exact h
  · exact hS

lemma ends_slice {Q : Bytes → Prop} {bytes : Bytes} (hS : S .slice) (h : ∀ c, Q c) : Ends S P Q (slice bytes a b) := by
  unfold slice
  split
  · exact h _
  · exact hS

end Pqsnet.Checked
