import Mathlib.Logic.Relation

/-! A system whose steps can be followed by those of another. -/

namespace Pqsnet.Checked

open Relation

variable {σ τ : Type*} {R : σ → σ → Prop} {S : τ → τ → Prop} {Rel : σ → τ → Prop}

/-- Related states stay related along every run, if one step can be followed by any number of steps. -/
lemma simulates_run (hstep : ∀ s s' t, Rel s t → R s s' → ∃ t', ReflTransGen S t t' ∧ Rel s' t') {s s' : σ} {t : τ}
    (h : Rel s t) (hrun : ReflTransGen R s s') : ∃ t', ReflTransGen S t t' ∧ Rel s' t' := by
  induction hrun with
  | refl => exact ⟨t, .refl, h⟩
  | tail _ hlast ih =>
    obtain ⟨t₁, hrun₁, h₁⟩ := ih
    obtain ⟨t₂, hrun₂, h₂⟩ := hstep _ _ _ h₁ hlast
    exact ⟨t₂, hrun₁.trans hrun₂, h₂⟩

end Pqsnet.Checked
