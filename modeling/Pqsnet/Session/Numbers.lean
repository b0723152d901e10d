import Pqsnet.Session.Changes

/-! Which documents a slot of the receive table can still have anything to do with. -/

namespace Pqsnet.Session

open Checked Outcome

variable {T : Type} {P : Allows} {s s' : SessionInner T} {U U' : Multiset Token} {i docNo : ℕ} {t : Token}

namespace SessionInner

lemma isSending_of_eq (hi : s'.isInitiator = s.isInitiator) (docNo : ℕ) : s'.isSending docNo = s.isSending docNo := by
  rw [isSending, isSending, hi]

lemma recvIdx_of_eq (hr : s'.recvTable.length = s.recvTable.length) (docNo : ℕ) : s'.recvIdx docNo = s.recvIdx docNo := by
  rw [recvIdx, recvIdx, hr]

lemma sendIdx_of_eq (hr : s'.sendTable.length = s.sendTable.length) (docNo : ℕ) : s'.sendIdx docNo = s.sendIdx docNo := by
  rw [sendIdx, sendIdx, hr]

end SessionInner

open SessionInner

section Views

lemma recvTable_of_view (h : s'.view = s.view) : s'.recvTable = s.recvTable := congrArg View.recvTable h

lemma sendTable_of_view (h : s'.view = s.view) : s'.sendTable = s.sendTable := congrArg View.sendTable h

lemma isInitiator_of_view (h : s'.view = s.view) : s'.isInitiator = s.isInitiator := congrArg View.isInitiator h

namespace WritesRecv

variable {e e' x : RecvDocMutable}

lemma recvTable (h : WritesRecv s s' i e') : s'.recvTable = s.recvTable.set i e' := congrArg View.recvTable h

lemma sendTable (h : WritesRecv s s' i e') : s'.sendTable = s.sendTable := congrArg View.sendTable h

lemma isInitiator (h : WritesRecv s s' i e') : s'.isInitiator = s.isInitiator := congrArg View.isInitiator h

lemma closes (h : WritesRecv s s' i e') : s'.closes = s.closes := congrArg View.closes h

lemma isSending (h : WritesRecv s s' i e') (docNo : ℕ) : s'.isSending docNo = s.isSending docNo :=
  isSending_of_eq h.isInitiator docNo

lemma recvIdx (h : WritesRecv s s' i e') (docNo : ℕ) : s'.recvIdx docNo = s.recvIdx docNo :=
  recvIdx_of_eq (by rw [h.recvTable, List.length_set]) docNo

lemma sendIdx (h : WritesRecv s s' i e') (docNo : ℕ) : s'.sendIdx docNo = s.sendIdx docNo :=
  sendIdx_of_eq (by rw [h.sendTable]) docNo

lemma get (h : WritesRecv s s' i e') {j : ℕ} (hx : s'.recvTable[j]? = some x) :
    (j = i ∧ x = e') ∨ (j ≠ i ∧ s.recvTable[j]? = some x) :=
  getElem?_set_cases (by rwa [h.recvTable] at hx)

lemma written (h : WritesRecv s s' (s.recvIdx docNo) e') (he : s.recvTable[s.recvIdx docNo]? = some e) :
    s'.recvTable[s'.recvIdx docNo]? = some e' := by
  rw [h.recvIdx, h.recvTable]
  exact getElem?_set_of_getElem? he e'

end WritesRecv

namespace WritesSend

variable {e e' x : SendDocMutable}

lemma recvTable (h : WritesSend s s' i e') : s'.recvTable = s.recvTable := congrArg View.recvTable h

lemma sendTable (h : WritesSend s s' i e') : s'.sendTable = s.sendTable.set i e' := congrArg View.sendTable h

lemma isInitiator (h : WritesSend s s' i e') : s'.isInitiator = s.isInitiator := congrArg View.isInitiator h

lemma closes (h : WritesSend s s' i e') : s'.closes = s.closes := congrArg View.closes h

lemma isSending (h : WritesSend s s' i e') (docNo : ℕ) : s'.isSending docNo = s.isSending docNo :=
  isSending_of_eq h.isInitiator docNo

lemma sendIdx (h : WritesSend s s' i e') (docNo : ℕ) : s'.sendIdx docNo = s.sendIdx docNo :=
  sendIdx_of_eq (by rw [h.sendTable, List.length_set]) docNo

lemma recvIdx (h : WritesSend s s' i e') (docNo : ℕ) : s'.recvIdx docNo = s.recvIdx docNo :=
  recvIdx_of_eq (by rw [h.recvTable]) docNo

lemma get (h : WritesSend s s' i e') {j : ℕ} (hx : s'.sendTable[j]? = some x) :
    (j = i ∧ x = e') ∨ (j ≠ i ∧ s.sendTable[j]? = some x) :=
  getElem?_set_cases (by rwa [h.sendTable] at hx)

lemma written (h : WritesSend s s' (s.sendIdx docNo) e') (he : s.sendTable[s.sendIdx docNo]? = some e) :
    s'.sendTable[s'.sendIdx docNo]? = some e' := by
  rw [h.sendIdx, h.sendTable]
  exact getElem?_set_of_getElem? he e'

end WritesSend

end Views

/-- Somebody has to do with a received document of that number. -/
def Labelled (s : SessionInner T) (U : Multiset Token) (docNo : ℕ) : Prop :=
  .copy docNo ∈ U ∨ .waiting docNo ∈ U ∨ .handle docNo ∈ U ∧ ¬ s.isSending docNo

/-- A slot is never behind the documents that went through it. While it still has the number of a completed document,
there is one copy of that document at most, and a slot that was reserved is as the thread left it that reserved it. -/
structure Numbered (s : SessionInner T) (U : Multiset Token) : Prop where
  label : ∀ docNo e, Labelled s U docNo → s.recvTable[s.recvIdx docNo]? = some e → docNo ≤ e.docNo
  receiving : ∀ t ∈ U, ∀ docNo, t.receivedNo = some docNo → ¬ s.isSending docNo
  unique : ∀ docNo e, s.recvTable[s.recvIdx docNo]? = some e → e.docNo = docNo →
    U.count (.copy docNo) ≤ 1 ∧ (.copy docNo ∈ U → e.doc.slotIsFin)
  claimed : ∀ docNo, .claim docNo ∈ U → ∃ e, s.recvTable[s.recvIdx docNo]? = some e ∧ e.docNo = docNo ∧ e.doc = .activeReserved
  once : ∀ docNo, U.count (.claim docNo) ≤ 1
  sending : ∀ docNo range, .future docNo range ∈ U → s.isSending docNo

namespace Numbered

variable {e e' : RecvDocMutable}

lemma mono (hinv : Numbered s U) (h : U' ≤ U) : Numbered s U' where
  label docNo e hl := hinv.label docNo e (hl.imp (Multiset.mem_of_le h) (Or.imp (Multiset.mem_of_le h)
    (And.imp_left (Multiset.mem_of_le h))))
  receiving t ht := hinv.receiving t (Multiset.mem_of_le h ht)
  unique docNo e he hno := (hinv.unique docNo e he hno).imp ((Multiset.count_le_of_le _ h).trans ·)
    fun hfin hc => hfin (Multiset.mem_of_le h hc)
  claimed docNo hc := hinv.claimed docNo (Multiset.mem_of_le h hc)
  once docNo := (Multiset.count_le_of_le _ h).trans (hinv.once docNo)
  sending docNo range hf := hinv.sending docNo range (Multiset.mem_of_le h hf)

lemma congr (hinv : Numbered s U) (hi : s'.isInitiator = s.isInitiator) (hr : s'.recvTable = s.recvTable) : Numbered s' U := by
  have hidx : ∀ docNo, s'.recvIdx docNo = s.recvIdx docNo := recvIdx_of_eq (by rw [hr])
  have hside := isSending_of_eq hi
  refine ⟨fun docNo e hl => ?_, fun t ht docNo => ?_, fun docNo e => ?_, fun docNo => ?_, hinv.once, fun docNo => ?_⟩
  · rw [hr, hidx]
    refine hinv.label docNo e ?_
    rwa [Labelled, hside] at hl
  · rw [hside]
    exact hinv.receiving t ht docNo
  · rw [hr, hidx]
    exact hinv.unique docNo e
  · rw [hr, hidx]
    exact hinv.claimed docNo
  · rw [hside]
    exact hinv.sending docNo

lemma write (hinv : Numbered s U) (he : s.recvTable[i]? = some e) (hs : WritesRecv s s' i e') (hle : e.docNo ≤ e'.docNo)
    (hfin : s.recvIdx e'.docNo = i → .copy e'.docNo ∈ U → e'.docNo = e.docNo ∧ e'.doc.slotIsFin)
    (hres : ∀ docNo, .claim docNo ∈ U → s.recvIdx docNo = i → e'.docNo = docNo ∧ e'.doc = .activeReserved) :
    Numbered s' U := by
  refine ⟨fun docNo x hl hx => ?_, fun t ht docNo => ?_, fun docNo x hx hno => ?_, fun docNo hc => ?_, hinv.once, fun docNo => ?_⟩
  · rw [hs.recvIdx] at hx
    rw [Labelled, hs.isSending] at hl
    obtain ⟨hi, rfl⟩ | ⟨-, hx⟩ := hs.get hx
    · exact (hinv.label docNo e hl (by rwa [hi])).trans hle
    · exact hinv.label docNo x hl hx
  · rw [hs.isSending]
    exact hinv.receiving t ht docNo
  · rw [hs.recvIdx] at hx
    obtain ⟨hi, rfl⟩ | ⟨-, hx⟩ := hs.get hx
    · subst hno
      by_cases hc : .copy x.docNo ∈ U
      · obtain ⟨hno, hf⟩ := hfin hi hc
        exact ⟨(hinv.unique x.docNo e (by rwa [hi]) hno.symm).1, fun _ => hf⟩
      · exact ⟨(Multiset.count_eq_zero_of_notMem hc).trans_le (Nat.zero_le 1), fun h => absurd h hc⟩
    · exact hinv.unique docNo x hx hno
  · rw [hs.recvIdx, hs.recvTable]
    by_cases hi : s.recvIdx docNo = i
    · exact ⟨e', by rw [hi]; exact getElem?_set_of_getElem? he e', hres docNo hc hi⟩
    · obtain ⟨x, hx, hno, hdoc⟩ := hinv.claimed docNo hc
      exact ⟨x, by rwa [List.getElem?_set_ne (Ne.symm hi)], hno, hdoc⟩
  · rw [hs.isSending]
    exact hinv.sending docNo

lemma slotIsFin_of_mem (hinv : Numbered s U) (he : s.recvTable[s.recvIdx docNo]? = some e) (hno : e.docNo = docNo)
    (hc : .copy docNo ∈ U) : e.doc.slotIsFin := (hinv.unique docNo e he hno).2 hc

lemma reserved_of_mem (hinv : Numbered s U) (he : s.recvTable[i]? = some e) (hc : .claim docNo ∈ U) (hi : s.recvIdx docNo = i) :
    e.docNo = docNo ∧ e.doc = .activeReserved := by
  obtain ⟨x, hx, hno, hdoc⟩ := hinv.claimed docNo hc
  obtain rfl : e = x := Option.some_inj.mp (he.symm.trans (hi ▸ hx))
  exact ⟨hno, hdoc⟩

lemma keep (hinv : Numbered s U) (he : s.recvTable[i]? = some e) (hs : WritesRecv s s' i e') (hno : e'.docNo = e.docNo)
    (hfin : e.doc.slotIsFin → e'.doc.slotIsFin) (hres : e.doc = .activeReserved → e'.doc = .activeReserved) : Numbered s' U := by
  refine hinv.write he hs hno.ge (fun hi hc => ⟨hno, hfin ?_⟩) fun docNo hc hi => ?_
  · rw [hno] at hi hc
    exact hinv.slotIsFin_of_mem (hi ▸ he) rfl hc
  · obtain ⟨hdocNo, hdoc⟩ := hinv.reserved_of_mem he hc hi
    exact ⟨hno.trans hdocNo, hres hdoc⟩

lemma quiet (hinv : Numbered s U) (he : s.recvTable[i]? = some e) (hs : WritesRecv s s' i e') (hq : RecvQuiet e e') :
    Numbered s' U := by
  obtain hdoc | ⟨d, d', hd, hd'⟩ := hq.doc
  · exact hinv.keep he hs hq.docNo (by rw [hdoc]; exact id) (by rw [hdoc]; exact id)
  · exact hinv.keep he hs hq.docNo (by rw [hd]; exact fun h => by cases h) (by rw [hd]; exact fun h => by cases h)

lemma add_other (hinv : Numbered s U) (hcopy : ∀ docNo, t ≠ .copy docNo) (hclaim : ∀ docNo, t ≠ .claim docNo)
    (hside : ∀ docNo range, t = .future docNo range → s.isSending docNo)
    (hrecv : ∀ docNo, t.receivedNo = some docNo → ¬ s.isSending docNo)
    (hl : ∀ docNo e, Labelled s {t} docNo → s.recvTable[s.recvIdx docNo]? = some e → docNo ≤ e.docNo) : Numbered s (U + {t}) := by
  have hmem {docNo : ℕ} (h : .copy docNo ∈ U + {t}) : .copy docNo ∈ U :=
    (Multiset.mem_add.mp h).resolve_right fun h => hcopy docNo (Multiset.mem_singleton.mp h).symm
  refine ⟨fun docNo e h he => ?_, fun t' ht' => ?_, fun docNo e he hno => ?_, fun docNo hc => ?_,
    fun docNo => ?_, fun docNo range hf => ?_⟩
  · simp only [Labelled, Multiset.mem_add] at h
    by_cases ht : Labelled s {t} docNo
    · exact hl docNo e ht he
    · refine hinv.label docNo e ?_ he
      simp only [Labelled] at ht ⊢
      tauto
  · obtain ht' | ht' := Multiset.mem_add.mp ht'
    · exact hinv.receiving t' ht'
    · rwa [Multiset.mem_singleton.mp ht']
  · rw [Multiset.count_add, Multiset.count_singleton, if_neg (hcopy docNo).symm]
    exact (hinv.unique docNo e he hno).imp_right fun h hc => h (hmem hc)
  · exact hinv.claimed docNo ((Multiset.mem_add.mp hc).resolve_right fun h => hclaim docNo (Multiset.mem_singleton.mp h).symm)
  · rw [Multiset.count_add, Multiset.count_singleton, if_neg (hclaim docNo).symm]
    exact hinv.once docNo
  · obtain hf | hf := Multiset.mem_add.mp hf
    · exact hinv.sending docNo range hf
    · exact hside docNo range (Multiset.mem_singleton.mp hf).symm

lemma add_copy (hinv : Numbered s U) (hside : ¬ s.isSending docNo) (he : s.recvTable[s.recvIdx docNo]? = some e)
    (hle : docNo ≤ e.docNo) (hfin : e.doc.slotIsFin) (hnot : e.docNo = docNo → .copy docNo ∉ U) :
    Numbered s (U + {.copy docNo}) := by
  refine ⟨fun no x h hx => ?_, fun t ht no hno => ?_, fun no x hx hno => ?_, fun no hc => ?_, fun no => ?_,
    fun no range hf => hinv.sending no range (by simpa using hf)⟩
  · by_cases heq : no = docNo
    · subst heq
      cases he.symm.trans hx
      exact hle
    · refine hinv.label no x ?_ hx
      simpa [Labelled, heq] using h
  · obtain ht | ht := Multiset.mem_add.mp ht
    · exact hinv.receiving t ht no hno
    · rw [Multiset.mem_singleton.mp ht] at hno
      cases hno
      exact hside
  · by_cases heq : no = docNo
    · subst heq
      cases he.symm.trans hx
      rw [Multiset.count_add, Multiset.count_eq_zero_of_notMem (hnot hno), Multiset.count_singleton_self]
      exact ⟨le_rfl, fun _ => hfin⟩
    · have hne : Token.copy no ≠ .copy docNo := fun h => heq (Token.copy.inj h)
      rw [Multiset.count_add, Multiset.count_singleton, if_neg hne, add_zero]
      exact (hinv.unique no x hx hno).imp_right fun h hc => h (by simpa [heq] using hc)
  · exact hinv.claimed no (by simpa using hc)
  · rw [Multiset.count_add, Multiset.count_singleton, if_neg (by simp)]
    exact hinv.once no

lemma add_claim (hinv : Numbered s U) (hside : ¬ s.isSending docNo) (he : s.recvTable[s.recvIdx docNo]? = some e) (hno : e.docNo = docNo)
    (hdoc : e.doc = .activeReserved) (hnot : .claim docNo ∉ U) : Numbered s (U + {.claim docNo}) := by
  refine ⟨fun no x h hx => hinv.label no x (by simpa [Labelled] using h) hx, fun t ht no hno => ?_,
    fun no x hx hno => ?_, fun no hc => ?_, fun no => ?_, fun no range hf => hinv.sending no range (by simpa using hf)⟩
  · obtain ht | ht := Multiset.mem_add.mp ht
    · exact hinv.receiving t ht no hno
    · rw [Multiset.mem_singleton.mp ht] at hno
      cases hno
      exact hside
  · rw [Multiset.count_add, Multiset.count_singleton, if_neg (by simp)]
    exact (hinv.unique no x hx hno).imp_right fun h hc => h (by simpa using hc)
  · by_cases heq : no = docNo
    · subst heq
      exact ⟨e, he, hno, hdoc⟩
    · exact hinv.claimed no (by simpa [heq] using hc)
  · by_cases heq : no = docNo
    · subst heq
      rw [Multiset.count_add, Multiset.count_eq_zero_of_notMem hnot, Multiset.count_singleton_self]
    · rw [Multiset.count_add, Multiset.count_singleton, if_neg (fun h => heq (Token.claim.inj h))]
      exact hinv.once no

lemma add_handle (hinv : Numbered s U)
    (hle : ∀ e, ¬ s.isSending docNo → s.recvTable[s.recvIdx docNo]? = some e → docNo ≤ e.docNo) : Numbered s (U + {.handle docNo}) := by
  refine hinv.add_other (fun _ => by simp) (fun _ => by simp) (fun _ _ => by simp) (fun _ => by simp [Token.receivedNo])
    fun no x hl hx => ?_
  obtain hl | hl | ⟨hl, hside⟩ := hl
  · simp at hl
  · simp at hl
  · obtain rfl : no = docNo := by simpa using hl
    exact hle x hside hx

lemma clone (hinv : Numbered s U) (hh : .handle docNo ∈ U) : Numbered s (U + {.handle docNo}) :=
  hinv.add_handle fun e hside he => hinv.label docNo e (.inr (.inr ⟨hh, hside⟩)) he

lemma left (hinv : Numbered s (U + U')) : Numbered s U := hinv.mono (Multiset.le_add_right U U')

lemma reckons {own : Prop} {a a' : Option ℕ} (hinv : Numbered s U) (h : Reckons P own docNo a a' U U') : Numbered s U' := by
  cases h with
  | same => exact hinv
  | closed => exact hinv
  | add hown hh => exact hinv.clone hh
  | drop hown ha ht => exact hinv.left

end Numbered

lemma writesRecv_setRecv (s : SessionInner T) (i : ℕ) (e' : RecvDocMutable) : WritesRecv s (s.setRecv i e') i e' := rfl

lemma writesSend_setSend (s : SessionInner T) (i : ℕ) (e' : SendDocMutable) : WritesSend s (s.setSend i e') i e' := rfl

lemma Change.numbered (h : Change P s s' U U') (hinv : Numbered s U) : Numbered s' U' := by
  cases h with
  | other hs => exact hinv.congr (isInitiator_of_view hs) (recvTable_of_view hs)
  | recv he hq hU hs => exact (hinv.reckons hU).quiet he hs hq
  | send he hq hU hs => exact (hinv.reckons hU).congr hs.isInitiator hs.recvTable
  | @closeRecv U docNo e t hside he hno hopen ht hc hs =>
    have hkeep := hinv.keep he (writesRecv_setRecv s _ { e with channel := none, needsSendControl := true }) rfl id id
    exact hkeep.congr (congrArg View.isInitiator hs) (congrArg View.recvTable hs)
  | closeSend hside he hno hopen ht hc hs => exact hinv.congr (congrArg View.isInitiator hs) (congrArg View.recvTable hs)
  | @claim U docNo e e' hside he hlt hfin hno hdoc hflag hc hs =>
    -- nobody has to do with the new number yet, and no slot is reserved that is final
    have hnot : .copy docNo ∉ U := fun h => hlt.not_ge (hinv.label docNo e (.inl h) he)
    have hfree {no : ℕ} (h : .claim no ∈ U) (hi : s.recvIdx no = s.recvIdx docNo) : False := by
      rw [(hinv.reserved_of_mem he h hi).2] at hfin
      cases hfin
    refine (hinv.write he hs (hno ▸ hlt.le) (fun _ h => absurd (hno ▸ h) hnot) fun no h hi => (hfree h hi).elim).add_claim
      (by rwa [hs.isSending]) (hs.written he) hno hdoc fun h => hfree h rfl
  | wait hside he hno hs =>
    refine (hinv.add_other (fun _ => by simp) (fun _ => by simp) (fun _ _ => by simp) (fun no h => ?_) fun no x hl hx => ?_).congr
      (isInitiator_of_view hs) (recvTable_of_view hs)
    · cases h
      exact hside
    · obtain rfl : no = _ := by simpa [Labelled] using hl
      cases he.symm.trans hx
      exact hno.ge
  | @install U docNo e doc he hno hdoc hs =>
    have hnot : .claim docNo ∉ U' := by
      have h := hinv.once docNo
      rw [Multiset.count_add, Multiset.count_singleton_self] at h
      exact Multiset.count_eq_zero.mp (by omega)
    refine hinv.left.write he hs le_rfl (fun hi h => ?_) fun no h hi => ?_
    · have hfin := hinv.left.slotIsFin_of_mem he hno (hno ▸ h)
      rw [hdoc] at hfin
      cases hfin
    · rw [← (hinv.left.reserved_of_mem he h hi).1, hno] at h
      exact absurd h hnot
  | @finish U docNo e doc hside he hdoc hno hs =>
    have hle : docNo ≤ e.docNo := hno.elim (fun h => h.ge) fun h => hinv.label docNo e (.inr (.inl h)) he
    have hkeep := hinv.keep he hs rfl (fun _ => rfl) (by rw [hdoc]; exact fun h => by cases h)
    refine hkeep.add_copy (by rwa [hs.isSending]) (hs.written he) hle rfl fun heq h => ?_
    have hfin := hinv.slotIsFin_of_mem he heq h
    rw [hdoc] at hfin
    cases hfin
  | reject he hdoc hs =>
    refine hinv.keep he hs rfl (fun _ => rfl) ?_
    rw [hdoc]
    exact fun h => by cases h
  | @retire _ docNo e he hno hs =>
    have hcopy : .copy docNo ∈ U' + {.copy docNo} := by simp
    have hnot : .copy docNo ∉ U' := by
      have h := (hinv.unique docNo e he hno).1
      rw [Multiset.count_add, Multiset.count_singleton_self] at h
      exact Multiset.count_eq_zero.mp (by omega)
    refine hinv.left.write he hs le_rfl (fun hi h => absurd (hno ▸ h) hnot) fun no h hi => ?_
    have hfin := hinv.slotIsFin_of_mem he hno hcopy
    rw [(hinv.left.reserved_of_mem he h hi).2] at hfin
    cases hfin
  | lend hP hside he hno hc hr hs =>
    exact (hinv.add_other (fun _ => by simp) (fun _ => by simp) (fun _ _ => by simp) (fun _ => by simp [Token.receivedNo])
      fun no x hl hx => absurd hl (by simp [Labelled])).congr hs.isInitiator hs.recvTable
  | reply he hno hc hs => exact hinv.left.congr hs.isInitiator hs.recvTable
  | openChannel hP hside he hfree hno hdoc hflag hc hs =>
    refine Numbered.congr ?_ hs.isInitiator hs.recvTable
    obtain ⟨-, rfl⟩ | ⟨range, -, rfl⟩ := hc
    · exact hinv.add_handle fun e h => absurd hside h
    · refine hinv.add_other (fun _ => by simp) (fun _ => by simp) (fun no _ h => ?_) (fun _ => by simp [Token.receivedNo])
        fun no x hl hx => absurd hl (by simp [Labelled])
      rwa [← (Token.future.inj h).1]
  | forget ht hs => exact hinv.left.congr (isInitiator_of_view hs) (recvTable_of_view hs)
  | deliver hs =>
    refine (hinv.left.add_handle fun e _ he => ?_).congr (isInitiator_of_view hs) (recvTable_of_view hs)
    exact hinv.label _ e (.inl (by simp)) he
  | clone hc hh hs => exact (hinv.clone hh).congr (isInitiator_of_view hs) (recvTable_of_view hs)
  | complete hc hs =>
    refine (hinv.left.add_handle fun e h => ?_).congr (isInitiator_of_view hs) (recvTable_of_view hs)
    exact absurd (hinv.sending _ _ (Multiset.mem_add.mpr (.inr (Multiset.mem_singleton_self _)))) h
  | count hP hs => exact hinv.congr (congrArg View.isInitiator hs) (congrArg View.recvTable hs)

end Pqsnet.Session
