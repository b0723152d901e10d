import Pqsnet.Session.Hostile

/-! When a slot of the receive table can be used again. -/

namespace Pqsnet.Session

open Checked Outcome

variable {T ε : Type}

/-- What a slot with number `docNo` expects and what waits in it: nothing, documents that came before their parent, or
nothing any more because the parent came. The number of the parent is not forgotten then. -/
inductive Orphans (docNo : ℕ) : Option ℕ → List UnfinishedRecvDoc → Prop
  | none : Orphans docNo .none []
  | waiting {p : ℕ} {ds : List UnfinishedRecvDoc} (hne : ds ≠ []) (hp : ∀ d ∈ ds, d.parentNo = p) (hlt : docNo < p) :
      Orphans docNo (some p) ds
  | arrived {p : ℕ} (hle : p ≤ docNo) : Orphans docNo (some p) []

namespace RecvDocMutable

variable {e : RecvDocMutable}

def Orphaned (e : RecvDocMutable) : Prop := Orphans e.docNo e.orphansExpectedParentNo e.adoptableOrphans

end RecvDocMutable

namespace SessionInner

variable {s s' : SessionInner T} {P : Permits} {h h' : Hand} {i docNo parentNo n : ℕ} {e e' : RecvDocMutable} {f : SegFrame}
  {doc : RecvDoc}

lemma EntryStep.orphaned {a a' : Prop} (hstep : EntryStep P s i a a' e e') (ho : e.Orphaned) : e'.Orphaned := by
  cases hstep with
  | channel | install | write | finish | retire => exact ho
  | claim _ _ _ _ _ _ hex =>
    rw [RecvDocMutable.Orphaned]
    dsimp only
    generalize e.orphansExpectedParentNo = expected at hex
    cases expected with
    | none => exact .none
    | some p => exact .arrived (of_decide_eq_true hex).le
  | orphan _ hlt hex =>
    refine .waiting (List.append_ne_nil_of_right_ne_nil _ (List.cons_ne_nil _ _)) (fun d' hd' => ?_) hlt
    rcases List.mem_append.mp hd' with hd' | hd'
    · -- those that wait already have the parent that the slot expects
      rw [RecvDocMutable.Orphaned] at ho
      generalize e.orphansExpectedParentNo = expected at ho hex
      generalize e.adoptableOrphans = ds at ho hd'
      cases ho with
      | none => exact absurd hd' List.not_mem_nil
      | waiting _ hp _ => exact (hp d' hd').trans (of_decide_eq_true hex)
      | arrived => exact absurd hd' List.not_mem_nil
    · rw [List.mem_singleton.mp hd']

lemma Moves.orphaned (hm : Moves P s h s' h') (ho : ∀ e ∈ s.recvTable, e.Orphaned) : ∀ e ∈ s'.recvTable, e.Orphaned := by
  induction hm with
  | refl => exact ho
  | tail _ hmove ih =>
    intro e' he'
    obtain ⟨j, hj⟩ := List.mem_iff_getElem?.mp he'
    obtain ⟨e, he, hstep⟩ := hmove.stepped.entry j e' hj
    exact hstep.orphaned (ih e (List.mem_of_getElem? he))

lemma EntryStep.docNo_eq {a a' : Prop} (hstep : EntryStep P s i a a' e e') (hP : ¬ P.claim) : e'.docNo = e.docNo := by
  cases hstep with
  | claim hclaim => exact absurd hclaim hP
  | _ => rfl

lemma Moves.entry {Q : RecvDocMutable → Prop} (hm : Moves P s h s' h') (he : s.recvTable[i]? = some e) (hQ : Q e)
    (hstep : ∀ {s : SessionInner T} {a a' : Prop} {e e' : RecvDocMutable}, EntryStep P s i a a' e e' → Q e → Q e') :
    ∃ e', s'.recvTable[i]? = some e' ∧ Q e' := by
  induction hm with
  | refl => exact ⟨e, he, hQ⟩
  | tail _ hmove ih =>
    obtain ⟨e₁, he₁, hQ₁⟩ := ih
    have hstepped := hmove.stepped
    obtain ⟨hlt, -⟩ := List.getElem?_eq_some_iff.mp he₁
    have he₂ := List.getElem?_eq_getElem (hstepped.recvLength ▸ hlt)
    obtain ⟨e₃, he₃, hentry⟩ := hstepped.entry i _ he₂
    obtain rfl : e₁ = e₃ := Option.some.inj (he₁.symm.trans he₃)
    exact ⟨_, he₂, hstep hentry hQ₁⟩

lemma Moves.docNo_eq (hm : Moves P s h s' h') (hP : ¬ P.claim) (he : s.recvTable[i]? = some e) :
    ∃ e', s'.recvTable[i]? = some e' ∧ e'.docNo = e.docNo :=
  hm.entry (Q := fun e' => e'.docNo = e.docNo) he rfl fun hstep hno => (hstep.docNo_eq hP).trans hno

lemma Ended.docNo_eq {r : RecvResult T} (hr : Ended P s h h' r) (hP : ¬ P.claim) (he : s.recvTable[i]? = some e) :
    ∃ e', r.2.recvTable[i]? = some e' ∧ e'.docNo = e.docNo := by
  obtain ⟨(_ | ⟨⟩), s'⟩ := r
  · obtain ⟨h'', hm, -⟩ := hr
    exact hm.docNo_eq hP he
  · exact Moves.docNo_eq hr hP he

/-- A completed document whose parent did not come yet waits in the slot of the parent. -/
def Waits (ε : Type) (s : SessionInner T) (docNo parentNo : ℕ) (isClosed : Bool) (doc : RecvDoc) : Prop :=
  ∃ s' e' d, (s.handOver docNo parentNo isClosed doc : Outcome ε _) = .ok (.ok (), s') ∧
    s'.recvTable[s.recvIdx parentNo]? = some e' ∧ d ∈ e'.adoptableOrphans ∧ d.docNo = docNo

end SessionInner

namespace World

open SessionInner

variable [LT T] [DecidableLT T] {w : World T} {e : RecvDocMutable}

lemma Reachable.orphaned (hw : w.Reachable) : ∀ e ∈ w.session.recvTable, e.Orphaned := by
  obtain ⟨w₀, as, hinit, hrun⟩ := hw
  refine always_true.induction (I := fun w => ∀ e ∈ w.session.recvTable, e.Orphaned) hinit.ok (fun e he => ?_) hrun
    fun w a w' hw ho _ ha => (hw.moves ha).orphaned ho
  obtain ⟨-, horphans, hexpected, -⟩ := hinit.recv e he
  rw [RecvDocMutable.Orphaned, horphans, hexpected]
  exact .none

end World

end Pqsnet.Session
