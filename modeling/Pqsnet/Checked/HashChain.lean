import Mathlib.Data.List.Infix

/-! Chains of hashes: each link is hashed together with the next entry into the next state. Without a
collision among the inputs, the last link determines the entries. -/

namespace Pqsnet.Checked

/-- The input to the hash determines the link and the entry it was made from. -/
structure HashChain (σ κ ε ι : Type) where
  link : σ → κ
  input : κ → ε → ι
  hash : ι → σ
  input_inj : ∀ {k k' e e'}, input k e = input k' e' → k = k' ∧ e = e'

namespace HashChain

variable {σ κ ε ι : Type} (H : HashChain σ κ ε ι)

def absorb (s : σ) (e : ε) : σ := H.hash (H.input (H.link s) e)

def replay (s : σ) (es : List ε) : σ := es.foldl H.absorb s

def inputs : σ → List ε → List ι
  | _, [] => []
  | s, e :: es => H.input (H.link s) e :: inputs (H.absorb s e) es

def CollisionFree (S : ι → Prop) : Prop :=
  ∀ x y, S x → S y → H.link (H.hash x) = H.link (H.hash y) → x = y

@[simp] lemma replay_nil (s : σ) : H.replay s [] = s := rfl

@[simp] lemma replay_cons (s : σ) (e : ε) (es : List ε) :
    H.replay s (e :: es) = H.replay (H.absorb s e) es := rfl

lemma replay_append (s : σ) (es fs : List ε) : H.replay s (es ++ fs) = H.replay (H.replay s es) fs :=
  List.foldl_append

lemma inputs_append (s : σ) (es fs : List ε) :
    H.inputs s (es ++ fs) = H.inputs s es ++ H.inputs (H.replay s es) fs := by
  induction es generalizing s with
  | nil => rfl
  | cons e es ih => simp only [List.cons_append, inputs, ih, replay_cons]

lemma inputs_mono {s : σ} {es fs : List ε} (h : es <+: fs) {x : ι} (hx : x ∈ H.inputs s es) : x ∈ H.inputs s fs := by
  obtain ⟨gs, rfl⟩ := h
  rw [inputs_append]
  exact List.mem_append_left _ hx

lemma exists_of_mem_inputs {s : σ} {es : List ε} {x : ι} (h : x ∈ H.inputs s es) :
    ∃ k, ∃ e ∈ es, x = H.input k e := by
  induction es generalizing s with
  | nil => simp [inputs] at h
  | cons e es ih =>
    rcases List.mem_cons.mp h with rfl | h
    · exact ⟨_, e, List.mem_cons_self, rfl⟩
    · obtain ⟨k, f, hf, rfl⟩ := ih h
      exact ⟨k, f, List.mem_cons_of_mem _ hf, rfl⟩

lemma exists_replay_eq_hash (s : σ) (e : ε) (es : List ε) :
    ∃ x ∈ H.inputs s (e :: es), H.replay s (e :: es) = H.hash x := by
  induction es generalizing s e with
  | nil => exact ⟨_, List.mem_cons_self, rfl⟩
  | cons f es ih =>
    obtain ⟨x, hx, h⟩ := ih (H.absorb s e) f
    exact ⟨x, List.mem_cons_of_mem _ hx, h⟩

variable {H} {S : ι → Prop} (hS : H.CollisionFree S)

include hS

lemma absorb_link_eq {s s' : σ} {e e' : ε} (hx : S (H.input (H.link s) e)) (hy : S (H.input (H.link s') e'))
    (h : H.link (H.absorb s e) = H.link (H.absorb s' e')) : H.link s = H.link s' ∧ e = e' :=
  H.input_inj (hS _ _ hx hy h)

/-- Going back link by link, the shorter list runs out with everything matched so far. -/
lemma suffix_of_link_eq (s : σ) {es fs : List ε} (he : ∀ x ∈ H.inputs s es, S x)
    (hf : ∀ x ∈ H.inputs s fs, S x) (h : H.link (H.replay s es) = H.link (H.replay s fs)) :
    es <:+ fs ∨ fs <:+ es := by
  induction es using List.reverseRecOn generalizing fs with
  | nil => exact .inl (List.nil_suffix)
  | append_singleton es e ih =>
    induction fs using List.reverseRecOn with
    | nil => exact .inr (List.nil_suffix)
    | append_singleton fs f _ =>
      simp only [inputs_append, inputs, List.mem_append, List.mem_singleton] at he hf
      rw [replay_append, replay_append] at h
      obtain ⟨hl, rfl⟩ := absorb_link_eq hS (he _ (.inr rfl)) (hf _ (.inr rfl)) h
      rcases ih (fun x hx => he x (.inl hx)) (fun x hx => hf x (.inl hx)) hl with ⟨t, rfl⟩ | ⟨t, rfl⟩
      · exact .inl ⟨t, by simp⟩
      · exact .inr ⟨t, by simp⟩

/-- When an entry of one kind stands at the front of both lists and nowhere else, neither list can
run out before the other. -/
lemma eq_of_link_eq (s : σ) (First : ε → Prop) {e f : ε} {es fs : List ε} (hfirst : First e ∧ First f)
    (hes : ∀ x ∈ es, ¬ First x) (hfs : ∀ x ∈ fs, ¬ First x) (he : ∀ x ∈ H.inputs s (e :: es), S x)
    (hf : ∀ x ∈ H.inputs s (f :: fs), S x)
    (h : H.link (H.replay s (e :: es)) = H.link (H.replay s (f :: fs))) : e :: es = f :: fs := by
  rcases suffix_of_link_eq hS s he hf h with hs | hs
  · rcases List.suffix_cons_iff.mp hs with heq | hs
    · exact heq
    · exact absurd hfirst.1 (hfs e (hs.subset List.mem_cons_self))
  · rcases List.suffix_cons_iff.mp hs with heq | hs
    · exact heq.symm
    · exact absurd hfirst.2 (hes f (hs.subset List.mem_cons_self))

lemma eq_of_output_eq {β : Type} {out : σ → β}
    (hout : ∀ x y, S x → S y → out (H.hash x) = out (H.hash y) → x = y) (s : σ) (First : ε → Prop) {e f : ε}
    {es fs : List ε} (hfirst : First e ∧ First f) (hes : ∀ x ∈ es, ¬ First x) (hfs : ∀ x ∈ fs, ¬ First x)
    (he : ∀ x ∈ H.inputs s (e :: es), S x) (hf : ∀ x ∈ H.inputs s (f :: fs), S x)
    (h : out (H.replay s (e :: es)) = out (H.replay s (f :: fs))) : e :: es = f :: fs := by
  obtain ⟨x, hx, hxs⟩ := H.exists_replay_eq_hash s e es
  obtain ⟨y, hy, hys⟩ := H.exists_replay_eq_hash s f fs
  have hxy : x = y := hout x y (he x hx) (hf y hy) (by rwa [← hxs, ← hys])
  exact eq_of_link_eq hS s First hfirst hes hfs he hf (by rw [hxs, hys, hxy])

end HashChain

end Pqsnet.Checked
