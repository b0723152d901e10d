import Pqsnet.Checked.Worklist
import Pqsnet.Session.Conservation
import Pqsnet.Session.Sections

/-! What is dropped together with a document: everything that waits in its channel, and in the channels of that in turn. -/

namespace Pqsnet.Session

open Checked Outcome

/-- The documents that wait in the channel of a slot, with their lengths. -/
def RecvDocMutable.items (e : RecvDocMutable) : List (ℕ × ℕ) :=
  e.channel.elim [] fun c => c.readyDocs.map fun d => (d.docNo, d.buf.length)

/-- The slot of a document that was dropped. -/
def RecvDocMutable.retire (e : RecvDocMutable) : RecvDocMutable :=
  { e with doc := .finParentClose, channel := none, needsSendControl := true }

namespace SessionInner

variable {T ε : Type} {s s' s₁ : SessionInner T} {docNo docLen j : ℕ} {v : ℕ × ℕ} {visited visited' stack : List (ℕ × ℕ)}
  {e e' : RecvDocMutable}

/-- What waits in the open channel of a received document. -/
def children (s : SessionInner T) (docNo : ℕ) : List (ℕ × ℕ) :=
  match s.recvTable[s.recvIdx docNo]? with
  | some e => if e.docNo = docNo then e.items else []
  | none => []

/-- One document waits in the channel of another. -/
def Child (s : SessionInner T) (v v' : ℕ × ℕ) : Prop := v' ∈ s.children v.1

/-- What waits in the channels of received documents. -/
def waitingItems (s : SessionInner T) : Multiset (ℕ × ℕ) := (s.recvTable.map fun e => (e.items : Multiset (ℕ × ℕ))).sum

/-- The slot of a document that is still in it. -/
def OwnSlot (s : SessionInner T) (docs : List ℕ) (j : ℕ) (e : RecvDocMutable) : Prop := e.docNo ∈ docs ∧ s.recvIdx e.docNo = j

instance (s : SessionInner T) (docs : List ℕ) (j : ℕ) (e : RecvDocMutable) : Decidable (s.OwnSlot docs j e) :=
  inferInstanceAs (Decidable (_ ∧ _))

/-- From `s` to `s'`, exactly `visited` were dropped, in this order. -/
structure Dropped (s : SessionInner T) (visited : List (ℕ × ℕ)) (s' : SessionInner T) : Prop where
  total : s'.recvBytesTotal = (visited.map Prod.snd).foldl fetchSub s.recvBytesTotal
  scheduled : s'.scheduled = s.scheduled ++ visited.map fun v => (variantControlFinParentClosed, v.1)
  table : ∀ j, s'.recvTable[j]? = s.recvTable[j]?.map fun e => if s.OwnSlot (visited.map Prod.fst) j e then e.retire else e
  other : s' = { s with
    recvBytesTotal := s'.recvBytesTotal, scheduled := s'.scheduled, recvTable := s'.recvTable, ledger := s'.ledger }

namespace Dropped

lemma nil (s : SessionInner T) : Dropped s [] s :=
  ⟨rfl, (List.append_nil _).symm, fun j => by cases s.recvTable[j]? <;> rfl, rfl⟩

lemma length_eq (h : Dropped s visited s') : s'.recvTable.length = s.recvTable.length := by
  apply le_antisymm
  · have := congrArg Option.isSome (h.table s.recvTable.length)
    rw [List.getElem?_eq_none le_rfl] at this
    by_contra hlt
    rw [List.getElem?_eq_getElem (not_le.mp hlt)] at this
    cases this
  · have := congrArg Option.isSome (h.table s'.recvTable.length)
    rw [List.getElem?_eq_none le_rfl] at this
    by_contra hlt
    rw [List.getElem?_eq_getElem (not_le.mp hlt)] at this
    cases this

lemma recvIdx_eq (h : Dropped s visited s') (no : ℕ) : s'.recvIdx no = s.recvIdx no := by
  rw [recvIdx, recvIdx, h.length_eq]

lemma ownSlot_iff (h : Dropped s visited s') (docs : List ℕ) (j : ℕ) (e : RecvDocMutable) :
    s'.OwnSlot docs j e ↔ s.OwnSlot docs j e := by
  rw [OwnSlot, OwnSlot, h.recvIdx_eq]

lemma ownSlot_append {docs docs' : List ℕ} {j : ℕ} : s.OwnSlot (docs ++ docs') j e ↔ s.OwnSlot docs j e ∨ s.OwnSlot docs' j e := by
  rw [OwnSlot, OwnSlot, OwnSlot, List.mem_append, or_and_right]

lemma trans (h : Dropped s visited s₁) (h' : Dropped s₁ visited' s') : Dropped s (visited ++ visited') s' := by
  refine ⟨?_, ?_, fun j => ?_, ?_⟩
  · rw [h'.total, h.total, List.map_append, List.foldl_append]
  · rw [h'.scheduled, h.scheduled, List.map_append, List.append_assoc]
  · rw [h'.table, h.table, Option.map_map, List.map_append]
    congr 1
    funext e
    rw [Function.comp_apply]
    by_cases hv : s.OwnSlot (visited.map Prod.fst) j e
    · rw [if_pos hv, if_pos (ownSlot_append.mpr (.inl hv))]
      split
      · rfl
      · rfl
    · rw [if_neg hv]
      by_cases hv' : s.OwnSlot (visited'.map Prod.fst) j e
      · rw [if_pos ((h.ownSlot_iff _ _ _).mpr hv'), if_pos (ownSlot_append.mpr (.inr hv'))]
      · rw [if_neg (mt (h.ownSlot_iff _ _ _).mp hv'), if_neg fun hown => (ownSlot_append.mp hown).elim hv hv']
  · have := h'.other
    rw [h.other] at this
    exact this

lemma getElem?_eq (h : Dropped s visited s') {j : ℕ} {e' : RecvDocMutable} (he' : s'.recvTable[j]? = some e') :
    ∃ e, s.recvTable[j]? = some e ∧ (s.OwnSlot (visited.map Prod.fst) j e ∧ e' = e.retire ∨
      ¬ s.OwnSlot (visited.map Prod.fst) j e ∧ e' = e) := by
  rw [h.table] at he'
  obtain ⟨e, he, rfl⟩ := Option.map_eq_some_iff.mp he'
  refine ⟨e, he, ?_⟩
  by_cases hown : s.OwnSlot (visited.map Prod.fst) j e
  · exact .inl ⟨hown, if_pos hown⟩
  · exact .inr ⟨hown, if_neg hown⟩

end Dropped

lemma children_eq (he : s.recvTable[s.recvIdx docNo]? = some e) : s.children docNo = if e.docNo = docNo then e.items else [] := by
  rw [children, he]

lemma Child.mem_waitingItems {v' : ℕ × ℕ} (h : s.Child v v') : v' ∈ s.waitingItems := by
  rw [Child, children] at h
  split at h
  · rename_i e he
    split_ifs at h with hno
    · exact mem_sum_map.mpr ⟨e, List.mem_of_getElem? he, h⟩
    · cases h
  · cases h

lemma ownSlot_singleton_iff (he : s.recvTable[s.recvIdx docNo]? = some e) (hj : s.recvTable[j]? = some e') :
    s.OwnSlot [docNo] j e' ↔ j = s.recvIdx docNo ∧ e.docNo = docNo := by
  rw [OwnSlot, List.mem_singleton]
  constructor
  · rintro ⟨rfl, rfl⟩
    obtain rfl := Option.some.inj (he.symm.trans hj)
    exact ⟨rfl, rfl⟩
  · rintro ⟨rfl, hno⟩
    obtain rfl := Option.some.inj (he.symm.trans hj)
    exact ⟨hno, by rw [hno]⟩

lemma table_after (he : s.recvTable[s.recvIdx docNo]? = some e) (j : ℕ) :
    (if e.docNo = docNo then s.recvTable.set (s.recvIdx docNo) e.retire else s.recvTable)[j]? =
      s.recvTable[j]?.map fun e' => if s.OwnSlot [docNo] j e' then e'.retire else e' := by
  cases hj : s.recvTable[j]? with
  | none =>
    rw [Option.map_none, List.getElem?_eq_none_iff]
    have := List.getElem?_eq_none_iff.mp hj
    split_ifs
    · rwa [List.length_set]
    · exact this
  | some e' =>
    rw [Option.map_some]
    by_cases hown : s.OwnSlot [docNo] j e'
    · rw [if_pos hown]
      obtain ⟨rfl, hno⟩ := (ownSlot_singleton_iff he hj).mp hown
      obtain rfl := Option.some.inj (he.symm.trans hj)
      rw [if_pos hno, getElem?_set_of_getElem? he]
    · rw [if_neg hown]
      split_ifs with hno
      · rw [List.getElem?_set_ne fun heq => hown ((ownSlot_singleton_iff he hj).mpr ⟨heq.symm, hno⟩), hj]
      · exact hj

lemma dropRound_cases (he : s.recvTable[s.recvIdx docNo]? = some e) (docLen : ℕ) :
    (s.debugAssertions ∧ e.docNo = docNo ∧ ¬ e.doc.slotIsFin ∧ (s.dropRound docNo docLen : Outcome ε _) = .panic .assertion) ∨
      ∃ s', (s.dropRound docNo docLen : Outcome ε _) = .ok (s.children docNo, s') ∧ Dropped s [(docNo, docLen)] s' ∧
        s'.recvTable = if e.docNo = docNo then s.recvTable.set (s.recvIdx docNo) e.retire else s.recvTable := by
  have htable := table_after he
  obtain ⟨hslot, hentry⟩ := slot_of_getElem? (ε := ε) he
  rw [dropRound]
  dsimp only [scheduleSendControl]
  rw [hslot, ok_bind, hentry, ok_bind, children_eq he]
  by_cases hno : e.docNo = docNo
  · rw [if_pos hno] at htable ⊢
    rw [if_pos hno, if_pos hno]
    by_cases hassert : s.debugAssertions ∧ !e.doc.slotIsFin
    · refine .inl ⟨hassert.1, hno, fun hfin => ?_, if_pos hassert⟩
      rw [hfin] at hassert
      exact Bool.false_ne_true hassert.2
    · rw [RecvDocMutable.items]
      cases e.channel with
      | none =>
        refine .inr ⟨_, if_neg hassert, ?_, rfl⟩
        exact ⟨rfl, rfl, htable, rfl⟩
      | some channel =>
        refine .inr ⟨_, if_neg hassert, ?_, rfl⟩
        exact ⟨rfl, rfl, htable, rfl⟩
  · rw [if_neg hno] at htable ⊢
    rw [if_neg hno, if_neg hno]
    refine .inr ⟨_, rfl, ?_, rfl⟩
    exact ⟨rfl, rfl, htable, rfl⟩

lemma exists_slot_of_dropRound {r : List (ℕ × ℕ) × SessionInner T} (h : (s.dropRound docNo docLen : Outcome ε _) = .ok r) :
    ∃ e, s.recvTable[s.recvIdx docNo]? = some e := by
  obtain ⟨i, hi, h⟩ := bind_eq_ok.mp h
  obtain ⟨e, he, -⟩ := bind_eq_ok.mp h
  obtain rfl := slot_eq_ok hi
  exact ⟨e, entryAt_eq_ok he⟩

lemma dropRound_dropped {pushed : List (ℕ × ℕ)} (h : (s.dropRound docNo docLen : Outcome ε _) = .ok (pushed, s')) :
    pushed = s.children docNo ∧ Dropped s [(docNo, docLen)] s' := by
  obtain ⟨e, he⟩ := exists_slot_of_dropRound h
  rcases dropRound_cases (ε := ε) he docLen with ⟨-, -, -, hpanic⟩ | ⟨s'', heq, hdropped, -⟩
  · exact absurd (hpanic.symm.trans h) (panic_ne_ok _ _)
  · obtain ⟨rfl, rfl⟩ := Prod.mk.inj (ok_inj.mp (heq.symm.trans h))
    exact ⟨rfl, hdropped⟩

lemma mem_waitingItems : v ∈ s.waitingItems ↔ ∃ e ∈ s.recvTable, v ∈ e.items := mem_sum_map

lemma Dropped.waitingItems_subset (h : Dropped s visited s') (hv : v ∈ s'.waitingItems) : v ∈ s.waitingItems := by
  obtain ⟨e', he', hv⟩ := mem_waitingItems.mp hv
  obtain ⟨j, he'⟩ := List.mem_iff_getElem?.mp he'
  obtain ⟨e, he, ⟨-, rfl⟩ | ⟨-, rfl⟩⟩ := h.getElem?_eq he'
  · cases hv
  · exact mem_waitingItems.mpr ⟨e', List.mem_of_getElem? he, hv⟩

lemma dropLoop_dropped {fuel : ℕ} (h : (dropLoop fuel stack s : Outcome ε _) = .ok s') :
    ∃ visited, Dropped s visited s' ∧ ∀ v ∈ visited, v ∈ stack ∨ v ∈ s.waitingItems := by
  induction fuel generalizing stack s with
  | zero =>
    cases stack with
    | nil =>
      cases h
      exact ⟨[], .nil _, fun _ hv => absurd hv List.not_mem_nil⟩
    | cons => cases h
  | succ fuel ih =>
    cases stack with
    | nil =>
      cases h
      exact ⟨[], .nil _, fun _ hv => absurd hv List.not_mem_nil⟩
    | cons v stack =>
      obtain ⟨⟨pushed, s₁⟩, hround, hloop⟩ := bind_eq_ok.mp h
      obtain ⟨rfl, hdropped⟩ := dropRound_dropped hround
      obtain ⟨visited, hrest, hmem⟩ := ih hloop
      refine ⟨v :: visited, hdropped.trans hrest, fun x hx => ?_⟩
      rcases List.mem_cons.mp hx with rfl | hx
      · exact .inl List.mem_cons_self
      · rcases hmem x hx with hx | hx
        · rcases List.mem_append.mp hx with hx | hx
          · exact .inr (Child.mem_waitingItems (v := v) hx)
          · exact .inl (List.mem_cons_of_mem _ hx)
        · exact .inr (hdropped.waitingItems_subset hx)

lemma dropEach_dropped (h : (dropEach stack s : Outcome ε _) = .ok s') :
    ∃ visited, Dropped s visited s' ∧ ∀ v ∈ visited, v ∈ stack ∨ v ∈ s.waitingItems := by
  induction stack generalizing s with
  | nil =>
    cases h
    exact ⟨[], .nil _, fun _ hv => absurd hv List.not_mem_nil⟩
  | cons v stack ih =>
    obtain ⟨s₁, hfirst, hrest⟩ := bind_eq_ok.mp h
    obtain ⟨visited, hdropped, hmem⟩ := dropLoop_dropped hfirst
    obtain ⟨visited', hdropped', hmem'⟩ := ih hrest
    refine ⟨visited ++ visited', hdropped.trans hdropped', fun x hx => ?_⟩
    rcases List.mem_append.mp hx with hx | hx
    · refine (hmem x hx).imp_left fun hv => ?_
      rw [List.mem_singleton.mp hv]
      exact List.mem_cons_self
    · exact (hmem' x hx).imp (List.mem_cons_of_mem _) hdropped.waitingItems_subset

namespace Droppable

variable {a : ℕ × ℕ}

end Droppable

section Hand

variable {P : Permits} {h : Hand} {u : Undelivered}

end Hand

section Reachable

variable [LT T] [DecidableLT T] {w : World T} {P : Permits} {h : Hand} {u : Undelivered}

end Reachable

end SessionInner

end Pqsnet.Session
