import Pqsnet.Session.Numbers

/-! Who refers to a channel, and what its reference count has to do with it. -/

namespace Pqsnet.Session

open Checked Outcome SessionInner

variable {T : Type} {P : Allows} {s s' : SessionInner T} {U U' : Multiset Token} {i docNo : ℕ} {t : Token}

/-- What may become of a slot of the receive table. -/
inductive RecvSlot (s : SessionInner T) (i : ℕ) (e e' : RecvDocMutable) : Prop
  | kept (hno : e'.docNo = e.docNo) (hopen : e'.channel.isSome → e.channel.isSome)
      (hflag : e'.needsSendControl → e.needsSendControl ∨ e'.channel = none) : RecvSlot s i e e'
  | claimed (hside : ¬ s.isSending e'.docNo) (hi : i = s.recvIdx e'.docNo) (hlater : e.docNo < e'.docNo)
      (hflag : ¬ e'.needsSendControl) : RecvSlot s i e e'

/-- What may become of a slot of the send table. -/
inductive SendSlot (P : Allows) (s : SessionInner T) (i : ℕ) (e e' : SendDocMutable) : Prop
  | kept (hno : e'.docNo = e.docNo) (hdoc : e'.doc.isSome = e.doc.isSome) (hopen : e'.channel.isSome → e.channel.isSome)
      (hflag : e'.needsSendClose → e.needsSendClose ∨ e'.channel = none) : SendSlot P s i e e'
  | opened (hP : P.send) (hside : s.isSending e'.docNo) (hi : i = s.sendIdx e'.docNo) (hfree : e.channel = none ∧ e.doc = none)
      (hdoc : e'.doc.isSome) (hflag : ¬ e'.needsSendClose) : SendSlot P s i e e'

namespace Change

lemma shape (h : Change P s s' U U') : s'.isInitiator = s.isInitiator ∧ s'.recvTable.length = s.recvTable.length ∧
    s'.sendTable.length = s.sendTable.length := by
  have hview {v : View} (hs : s'.view = v) (hv : v.isInitiator = s.isInitiator ∧ v.recvTable.length = s.recvTable.length ∧
      v.sendTable.length = s.sendTable.length) : s'.view.isInitiator = s.isInitiator ∧
      s'.view.recvTable.length = s.recvTable.length ∧ s'.view.sendTable.length = s.sendTable.length := hs ▸ hv
  cases h <;> first
    | exact hview ‹WritesRecv s s' _ _› ⟨rfl, List.length_set .., rfl⟩
    | exact hview ‹WritesSend s s' _ _› ⟨rfl, rfl, List.length_set ..⟩
    | exact hview ‹s'.view = _› ⟨rfl, List.length_set .., rfl⟩
    | exact hview ‹s'.view = _› ⟨rfl, rfl, List.length_set ..⟩
    | exact hview ‹s'.view = _› ⟨rfl, rfl, rfl⟩

lemma counters (h : Change P s s' U U') (hP : ¬ P.send) : s'.sendTotal = s.sendTotal ∧ s'.sendDocNo = s.sendDocNo := by
  have hview {v : View} (hs : s'.view = v) (hv : v.sendTotal = s.sendTotal ∧ v.sendDocNo = s.sendDocNo) :
      s'.view.sendTotal = s.sendTotal ∧ s'.view.sendDocNo = s.sendDocNo := hs ▸ hv
  cases h <;> first
    | exact absurd ‹P.send› hP
    | exact hview ‹WritesRecv s s' _ _› ⟨rfl, rfl⟩
    | exact hview ‹WritesSend s s' _ _› ⟨rfl, rfl⟩
    | exact hview ‹s'.view = _› ⟨rfl, rfl⟩

lemma isSending (h : Change P s s' U U') (docNo : ℕ) : s'.isSending docNo = s.isSending docNo :=
  isSending_of_eq h.shape.1 docNo

lemma recvIdx (h : Change P s s' U U') (docNo : ℕ) : s'.recvIdx docNo = s.recvIdx docNo := recvIdx_of_eq h.shape.2.1 docNo

lemma sendIdx (h : Change P s s' U U') (docNo : ℕ) : s'.sendIdx docNo = s.sendIdx docNo := sendIdx_of_eq h.shape.2.2 docNo

lemma recvSlot {e' : RecvDocMutable} (h : Change P s s' U U') (he' : s'.recvTable[i]? = some e') :
    ∃ e, s.recvTable[i]? = some e ∧ RecvSlot s i e e' := by
  have hsame (ht : s'.recvTable = s.recvTable) : ∃ e, s.recvTable[i]? = some e ∧ RecvSlot s i e e' :=
    ⟨e', ht ▸ he', .kept rfl id .inl⟩
  have hset {j : ℕ} {x x' : RecvDocMutable} (ht : s'.recvTable = s.recvTable.set j x') (hx : s.recvTable[j]? = some x)
      (hslot : RecvSlot s j x x') : ∃ e, s.recvTable[i]? = some e ∧ RecvSlot s i e e' := by
    rw [ht] at he'
    obtain ⟨rfl, rfl⟩ | ⟨-, he'⟩ := getElem?_set_cases he'
    · exact ⟨x, hx, hslot⟩
    · exact ⟨e', he', .kept rfl id .inl⟩
  cases h with
  | recv he hq hU hs =>
    refine hset hs.recvTable he (.kept hq.docNo (fun hopen => ?_) fun h => .inl (hq.flag h))
    obtain ⟨c', hc'⟩ := Option.isSome_iff_exists.mp hopen
    obtain ⟨c, hc, -⟩ := hq.channel c' hc'
    exact Option.isSome_of_eq_some hc
  | closeRecv hside he hno hopen ht hc hs => exact hset (congrArg View.recvTable hs) he (.kept rfl (fun _ => hopen) fun _ => .inr rfl)
  | claim hside he hlt hfin hno hdoc hflag hc hs =>
    exact hset hs.recvTable he (.claimed (by rwa [hno]) (by rw [hno]) (by rwa [hno]) hflag)
  | install he hno hdoc hs => exact hset hs.recvTable he (.kept rfl id .inl)
  | finish hside he hdoc hno hs => exact hset hs.recvTable he (.kept rfl (fun h => by rwa [Option.isSome_map] at h) .inl)
  | reject he hdoc hs => exact hset hs.recvTable he (.kept rfl id .inl)
  | retire he hno hs => exact hset hs.recvTable he (.kept rfl (fun h => by cases h) fun _ => .inr rfl)
  | other hs => exact hsame (recvTable_of_view hs)
  | send _ _ _ hs => exact hsame hs.recvTable
  | closeSend _ _ _ _ _ _ hs => exact hsame (congrArg View.recvTable hs)
  | lend _ _ _ _ _ _ hs => exact hsame hs.recvTable
  | reply _ _ _ hs => exact hsame hs.recvTable
  | openChannel _ _ _ _ _ _ _ _ hs => exact hsame hs.recvTable
  | wait _ _ _ hs => exact hsame (recvTable_of_view hs)
  | forget _ hs => exact hsame (recvTable_of_view hs)
  | deliver hs => exact hsame (recvTable_of_view hs)
  | clone _ _ hs => exact hsame (recvTable_of_view hs)
  | complete _ hs => exact hsame (recvTable_of_view hs)
  | count _ hs => exact hsame (congrArg View.recvTable hs)

lemma sendSlot {e' : SendDocMutable} (h : Change P s s' U U') (he' : s'.sendTable[i]? = some e') :
    ∃ e, s.sendTable[i]? = some e ∧ SendSlot P s i e e' := by
  have hsame (ht : s'.sendTable = s.sendTable) : ∃ e, s.sendTable[i]? = some e ∧ SendSlot P s i e e' :=
    ⟨e', ht ▸ he', .kept rfl rfl id .inl⟩
  have hset {j : ℕ} {x x' : SendDocMutable} (ht : s'.sendTable = s.sendTable.set j x') (hx : s.sendTable[j]? = some x)
      (hslot : SendSlot P s j x x') : ∃ e, s.sendTable[i]? = some e ∧ SendSlot P s i e e' := by
    rw [ht] at he'
    obtain ⟨rfl, rfl⟩ | ⟨-, he'⟩ := getElem?_set_cases he'
    · exact ⟨x, hx, hslot⟩
    · exact ⟨e', he', .kept rfl rfl id .inl⟩
  cases h with
  | send he hq hU hs =>
    exact hset hs.sendTable he (.kept hq.docNo hq.doc (fun h => hq.channel.symm.trans h) fun h => .inl (hq.flag h))
  | closeSend hside he hno hopen ht hc hs =>
    exact hset (congrArg View.sendTable hs) he (.kept rfl rfl (fun _ => hopen) fun _ => .inr rfl)
  | lend hP hside he hno hc hr hs => exact hset hs.sendTable he (.kept rfl rfl (fun _ => Option.isSome_of_eq_some hc) .inl)
  | reply he hno hc hs => exact hset hs.sendTable he (.kept rfl rfl (fun _ => Option.isSome_of_eq_some hc) .inl)
  | openChannel hP hside he hfree hno hdoc hflag hc hs =>
    exact hset hs.sendTable he (.opened hP (by rwa [hno]) (by rw [hno]) hfree hdoc hflag)
  | other hs => exact hsame (sendTable_of_view hs)
  | recv _ _ _ hs => exact hsame hs.sendTable
  | closeRecv _ _ _ _ _ _ hs => exact hsame (congrArg View.sendTable hs)
  | claim _ _ _ _ _ _ _ _ hs => exact hsame hs.sendTable
  | wait _ _ _ hs => exact hsame (sendTable_of_view hs)
  | install _ _ _ hs => exact hsame hs.sendTable
  | finish _ _ _ _ hs => exact hsame hs.sendTable
  | reject _ _ hs => exact hsame hs.sendTable
  | retire _ _ hs => exact hsame hs.sendTable
  | forget _ hs => exact hsame (sendTable_of_view hs)
  | deliver hs => exact hsame (sendTable_of_view hs)
  | clone _ _ hs => exact hsame (sendTable_of_view hs)
  | complete _ hs => exact hsame (sendTable_of_view hs)
  | count _ hs => exact hsame (congrArg View.sendTable hs)

lemma kept {e : SendDocMutable} (h : Change P s s' U U') (he : s.sendTable[i]? = some e) (hdoc : e.doc.isSome) :
    ∃ e', s'.sendTable[i]? = some e' ∧ e'.docNo = e.docNo ∧ e'.doc.isSome ∧ (e'.channel.isSome → e.channel.isSome) := by
  have hlt : i < s'.sendTable.length := h.shape.2.2 ▸ (List.getElem?_eq_some_iff.mp he).1
  obtain ⟨x, hx, hslot⟩ := h.sendSlot (List.getElem?_eq_getElem hlt)
  cases he.symm.trans hx
  cases hslot with
  | kept hno hdoc' hopen hflag => exact ⟨_, List.getElem?_eq_getElem hlt, hno, hdoc'.trans hdoc, hopen⟩
  | opened hP hside hi hfree hdoc' hflag =>
    rw [hfree.2] at hdoc
    cases hdoc

lemma later {e : RecvDocMutable} (h : Change P s s' U U') (he : s.recvTable[i]? = some e) :
    ∃ e', s'.recvTable[i]? = some e' ∧ e.docNo ≤ e'.docNo ∧ (e'.docNo = e.docNo → e'.channel.isSome → e.channel.isSome) := by
  have hlt : i < s'.recvTable.length := h.shape.2.1 ▸ (List.getElem?_eq_some_iff.mp he).1
  obtain ⟨x, hx, hslot⟩ := h.recvSlot (List.getElem?_eq_getElem hlt)
  cases he.symm.trans hx
  refine ⟨_, List.getElem?_eq_getElem hlt, ?_⟩
  cases hslot with
  | kept hno hopen hflag => exact ⟨hno.ge, fun _ => hopen⟩
  | claimed hside hi hlater hflag => exact ⟨hlater.le, fun heq => absurd heq hlater.ne'⟩

end Change

/-- Somebody has a handle to a document, or a future of it. -/
def Holds (docNo : ℕ) (U : Multiset Token) : Prop := .handle docNo ∈ U ∨ ∃ range, .future docNo range ∈ U

lemma Holds.mono (hh : Holds docNo U) (h : U ≤ U') : Holds docNo U' :=
  hh.imp (Multiset.mem_of_le h) fun ⟨range, hf⟩ => ⟨range, Multiset.mem_of_le h hf⟩

lemma Token.Closes.holds (ht : t.Closes P docNo) (hU : t ∈ U) : Holds docNo U := by
  obtain rfl | ⟨range, rfl, -⟩ := ht
  · exact .inl hU
  · exact .inr ⟨range, hU⟩

lemma Reckons.holds {own : Prop} {a a' : Option ℕ} {no : ℕ} (h : Reckons P own docNo a a' U U') (hh : Holds no U') : Holds no U := by
  cases h with
  | same => exact hh
  | closed => exact hh
  | add hown hmem =>
    obtain hh | ⟨range, hh⟩ := hh
    · obtain hh | hh := Multiset.mem_add.mp hh
      · exact .inl hh
      · rw [Token.handle.inj (Multiset.mem_singleton.mp hh)]
        exact .inl hmem
    · exact .inr ⟨range, by simpa using hh⟩
  | drop hown ha ht => exact hh.mono (Multiset.le_add_right _ _)

/-- Somebody who holds a document held it before, or the document was delivered just now, or it was just put into a slot. -/
lemma Change.holds (h : Change P s s' U U') (hh : Holds docNo U') : Holds docNo U ∨ .copy docNo ∈ U ∨
    ∃ e, s'.sendTable[s'.sendIdx docNo]? = some e ∧ e.docNo = docNo ∧ e.doc.isSome := by
  have hother {no : ℕ} {t : Token} {U : Multiset Token} (hh : Holds no (U + {t})) (hhandle : t ≠ .handle no)
      (hfuture : ∀ range, t ≠ .future no range) : Holds no U := by
    refine hh.imp (fun hm => ?_) fun ⟨range, hm⟩ => ⟨range, ?_⟩
    · exact (Multiset.mem_add.mp hm).resolve_right fun h => hhandle (Multiset.mem_singleton.mp h).symm
    · exact (Multiset.mem_add.mp hm).resolve_right fun h => hfuture range (Multiset.mem_singleton.mp h).symm
  cases h with
  | other => exact .inl hh
  | recv he hq hU hs => exact .inl (hU.holds hh)
  | send he hq hU hs => exact .inl (hU.holds hh)
  | closeRecv => exact .inl hh
  | closeSend => exact .inl hh
  | claim => exact .inl (hother hh (by simp) (by simp))
  | wait => exact .inl (hother hh (by simp) (by simp))
  | install => exact .inl (hh.mono (Multiset.le_add_right _ _))
  | finish => exact .inl (hother hh (by simp) (by simp))
  | reject => exact .inl hh
  | retire => exact .inl (hh.mono (Multiset.le_add_right _ _))
  | lend => exact .inl (hother hh (by simp) (by simp))
  | reply => exact .inl (hh.mono (Multiset.le_add_right _ _))
  | @openChannel U no e e' t hP hside he hfree hno hdoc hflag hc hs =>
    by_cases heq : no = docNo
    · subst heq
      exact .inr (.inr ⟨e', hs.written he, hno, hdoc⟩)
    · refine .inl (hother hh ?_ ?_) <;> obtain ⟨-, rfl⟩ | ⟨range, -, rfl⟩ := hc <;> simp [heq]
  | forget => exact .inl (hh.mono (Multiset.le_add_right _ _))
  | @deliver U no hs =>
    by_cases heq : no = docNo
    · exact .inr (.inl (by simp [heq]))
    · exact .inl ((hother hh (by simp [heq]) (by simp)).mono (Multiset.le_add_right _ _))
  | @clone U no hc hmem hs =>
    by_cases heq : no = docNo
    · exact .inl (.inl (heq ▸ hmem))
    · exact .inl (hother hh (by simp [heq]) (by simp))
  | @complete U no range hc hs =>
    by_cases heq : no = docNo
    · exact .inl (.inr ⟨range, by simp [heq]⟩)
    · exact .inl ((hother hh (by simp [heq]) (by simp)).mono (Multiset.le_add_right _ _))
  | count => exact .inl hh

/-- What somebody has a handle to, if it is a document that this side sends, is still in its slot. -/
def Populated (s : SessionInner T) (U : Multiset Token) : Prop :=
  ∀ docNo, Holds docNo U → s.isSending docNo → ∃ e, s.sendTable[s.sendIdx docNo]? = some e ∧ e.docNo = docNo ∧ e.doc.isSome

lemma Change.populated (h : Change P s s' U U') (hnum : Numbered s U) (hinv : Populated s U) : Populated s' U' := by
  intro docNo hh hside
  rw [h.isSending] at hside
  obtain hh | hcopy | hslot := h.holds hh
  · obtain ⟨e, he, hno, hdoc⟩ := hinv docNo hh hside
    obtain ⟨e', he', hno', hdoc', -⟩ := h.kept he hdoc
    exact ⟨e', by rwa [h.sendIdx], hno'.trans hno, hdoc'⟩
  · exact absurd hside (hnum.receiving _ hcopy docNo rfl)
  · exact hslot

section Channels

variable {c : OpenChannel}

lemma channelOf_recv {e : RecvDocMutable} (hside : ¬ s.isSending docNo) (he : s.recvTable[s.recvIdx docNo]? = some e)
    (hno : e.docNo = docNo) : s.channelOf docNo = e.channel := by
  rw [channelOf, if_neg hside, he, Option.bind_some, if_pos hno]

lemma channelOf_send {e : SendDocMutable} (hside : s.isSending docNo) (he : s.sendTable[s.sendIdx docNo]? = some e)
    (hno : e.docNo = docNo) : s.channelOf docNo = e.channel := by
  rw [channelOf, if_pos hside, he, Option.bind_some, if_pos hno]

lemma channelOf_of_eq (hi : s'.isInitiator = s.isInitiator) (hr : s'.recvTable = s.recvTable) (ht : s'.sendTable = s.sendTable) :
    s'.channelOf docNo = s.channelOf docNo := by
  rw [channelOf, channelOf, SessionInner.recvIdx, SessionInner.sendIdx, hr, ht, isSending_of_eq hi]
  rfl

lemma WritesRecv.channelOf {e' : RecvDocMutable} (hs : WritesRecv s s' i e') (hc : s'.channelOf docNo = some c) :
    (¬ s.isSending docNo ∧ s.recvIdx docNo = i ∧ e'.docNo = docNo ∧ e'.channel = some c) ∨
    (s.channelOf docNo = some c ∧ (s.isSending docNo ∨ s.recvIdx docNo ≠ i)) := by
  obtain ⟨x, hx, hno, hx', hside, -⟩ | ⟨x, hx, hno, hx', hside, -⟩ := channelOf_cases hc
  · rw [hs.isSending] at hside
    rw [hs.sendIdx, hs.sendTable] at hx
    exact .inr ⟨(channelOf_send hside hx hno).trans hx', .inl hside⟩
  · rw [hs.isSending] at hside
    rw [hs.recvIdx] at hx
    obtain ⟨hi, rfl⟩ | ⟨hi, hx⟩ := hs.get hx
    · exact .inl ⟨hside, hi, hno, hx'⟩
    · exact .inr ⟨(channelOf_recv hside hx hno).trans hx', .inr hi⟩

lemma WritesSend.channelOf {e' : SendDocMutable} (hs : WritesSend s s' i e') (hc : s'.channelOf docNo = some c) :
    (s.isSending docNo ∧ s.sendIdx docNo = i ∧ e'.docNo = docNo ∧ e'.channel = some c) ∨
    (s.channelOf docNo = some c ∧ (¬ s.isSending docNo ∨ s.sendIdx docNo ≠ i)) := by
  obtain ⟨x, hx, hno, hx', hside, -⟩ | ⟨x, hx, hno, hx', hside, -⟩ := channelOf_cases hc
  · rw [hs.isSending] at hside
    rw [hs.sendIdx] at hx
    obtain ⟨hi, rfl⟩ | ⟨hi, hx⟩ := hs.get hx
    · exact .inl ⟨hside, hi, hno, hx'⟩
    · exact .inr ⟨(channelOf_send hside hx hno).trans hx', .inr hi⟩
  · rw [hs.isSending] at hside
    rw [hs.recvIdx, hs.recvTable] at hx
    exact .inr ⟨(channelOf_recv hside hx hno).trans hx', .inl hside⟩

lemma WritesRecv.channelOf_sending {e' : RecvDocMutable} (hs : WritesRecv s s' i e') (hside : s.isSending docNo) :
    s'.channelOf docNo = s.channelOf docNo := by
  rw [SessionInner.channelOf, SessionInner.channelOf, hs.isSending, if_pos hside, if_pos hside, hs.sendIdx, hs.sendTable]

lemma WritesSend.channelOf_other {e' : SendDocMutable} (hs : WritesSend s s' i e') (hside : s.isSending docNo)
    (hne : s.sendIdx docNo ≠ i) : s'.channelOf docNo = s.channelOf docNo := by
  rw [SessionInner.channelOf, SessionInner.channelOf, hs.isSending, if_pos hside, if_pos hside, hs.sendIdx, hs.sendTable,
    List.getElem?_set_ne hne.symm]

end Channels

/-- An open channel counts everyone who refers to it. -/
def Counted (s : SessionInner T) (U : Multiset Token) : Prop :=
  ∀ docNo c, s.channelOf docNo = some c → Token.countOf (Token.refersTo docNo) U ≤ c.refCount

lemma Token.Closes.refersTo (ht : t.Closes P docNo) : t.refersTo docNo := by
  obtain rfl | ⟨range, rfl, -⟩ := ht <;> simp [Token.refersTo]

namespace Reckons

variable {own : Prop}

lemma count_le {a a' : ℕ} (h : Reckons P own docNo (some a) (some a') U U')
    (hle : Token.countOf (Token.refersTo docNo) U ≤ a) : Token.countOf (Token.refersTo docNo) U' ≤ a' := by
  cases h with
  | same => exact hle
  | add hown hh =>
    rw [Token.countOf_add, Token.countOf_singleton]
    split <;> omega
  | drop hown ha ht =>
    rw [Token.countOf_add, Token.countOf_singleton, if_pos ht.refersTo] at hle
    omega

lemma count_of_ne {a a' : Option ℕ} {no : ℕ} (h : Reckons P own docNo a a' U U') (hne : own → no ≠ docNo) :
    Token.countOf (Token.refersTo no) U' ≤ Token.countOf (Token.refersTo no) U := by
  cases h with
  | same => exact le_rfl
  | closed => exact le_rfl
  | add hown hh => simp [Token.refersTo, (hne hown).symm]
  | drop hown ha ht => simp

end Reckons

namespace Counted

lemma mono (hinv : Counted s U) (h : U' ≤ U) : Counted s U' := fun docNo c hc =>
  (Token.countOf_mono _ h).trans (hinv docNo c hc)

lemma left (hinv : Counted s (U + U')) : Counted s U := hinv.mono (Multiset.le_add_right U U')

lemma congr (hinv : Counted s U) (hi : s'.isInitiator = s.isInitiator) (hr : s'.recvTable = s.recvTable)
    (ht : s'.sendTable = s.sendTable) : Counted s' U := fun docNo c hc => hinv docNo c (channelOf_of_eq hi hr ht ▸ hc)

lemma view (hinv : Counted s U) (hs : s'.view = s.view) : Counted s' U :=
  hinv.congr (isInitiator_of_view hs) (recvTable_of_view hs) (sendTable_of_view hs)

lemma swap {t' : Token} (hinv : Counted s (U + {t})) (h : ∀ docNo, t'.refersTo docNo → t.refersTo docNo) : Counted s (U + {t'}) := by
  intro docNo c hc
  have hle := hinv docNo c hc
  rw [Token.countOf_add, Token.countOf_singleton] at hle ⊢
  by_cases h' : t'.refersTo docNo
  · rw [if_pos (h docNo h')] at hle
    rwa [if_pos h']
  · rw [if_neg h']
    omega

lemma add (hinv : Counted s U) (h : ∀ docNo, ¬ t.refersTo docNo) : Counted s (U + {t}) := by
  intro docNo c hc
  rw [Token.countOf_add, Token.countOf_singleton, if_neg (h docNo)]
  exact hinv docNo c hc

lemma writeRecv {e' : RecvDocMutable} (hinv : Counted s U) (hs : WritesRecv s s' i e')
    (hnew : ∀ c, ¬ s.isSending e'.docNo → s.recvIdx e'.docNo = i → e'.channel = some c →
      Token.countOf (Token.refersTo e'.docNo) U' ≤ c.refCount)
    (hold : ∀ no, s.isSending no ∨ s.recvIdx no ≠ i → Token.countOf (Token.refersTo no) U' ≤ Token.countOf (Token.refersTo no) U) :
    Counted s' U' := by
  intro docNo c hopen
  obtain ⟨hside, hi, rfl, hc⟩ | ⟨hc, hother⟩ := hs.channelOf hopen
  · exact hnew c hside hi hc
  · exact (hold docNo hother).trans (hinv docNo c hc)

lemma writeSend {e' : SendDocMutable} (hinv : Counted s U) (hs : WritesSend s s' i e')
    (hnew : ∀ c, s.isSending e'.docNo → s.sendIdx e'.docNo = i → e'.channel = some c →
      Token.countOf (Token.refersTo e'.docNo) U' ≤ c.refCount)
    (hold : ∀ no, ¬ s.isSending no ∨ s.sendIdx no ≠ i → Token.countOf (Token.refersTo no) U' ≤ Token.countOf (Token.refersTo no) U) :
    Counted s' U' := by
  intro docNo c hopen
  obtain ⟨hside, hi, rfl, hc⟩ | ⟨hc, hother⟩ := hs.channelOf hopen
  · exact hnew c hside hi hc
  · exact (hold docNo hother).trans (hinv docNo c hc)

lemma keepRecv {e e' : RecvDocMutable} (hinv : Counted s U) (he : s.recvTable[i]? = some e) (hs : WritesRecv s s' i e')
    (hno : e'.docNo = e.docNo) (hc : ∀ c', e'.channel = some c' → ∃ c, e.channel = some c ∧ c.refCount = c'.refCount) :
    Counted s' U := by
  refine hinv.writeRecv hs (fun c' hside hi hc' => ?_) fun _ _ => le_rfl
  obtain ⟨c, hc, hcount⟩ := hc c' hc'
  rw [hno] at hside hi ⊢
  exact hcount ▸ hinv e.docNo c ((channelOf_recv hside (hi ▸ he) rfl).trans hc)

lemma keepSend {e e' : SendDocMutable} (hinv : Counted s U) (he : s.sendTable[i]? = some e) (hs : WritesSend s s' i e')
    (hno : e'.docNo = e.docNo) (hc : ∀ c', e'.channel = some c' → ∃ c, e.channel = some c ∧ c.refCount = c'.refCount) :
    Counted s' U := by
  refine hinv.writeSend hs (fun c' hside hi hc' => ?_) fun _ _ => le_rfl
  obtain ⟨c, hc, hcount⟩ := hc c' hc'
  rw [hno] at hside hi ⊢
  exact hcount ▸ hinv e.docNo c ((channelOf_send hside (hi ▸ he) rfl).trans hc)

lemma refs_eq_zero (hcopy : .copy docNo ∉ U) (hholds : ¬ Holds docNo U) : Token.countOf (Token.refersTo docNo) U = 0 := by
  refine Token.countOf_eq_zero.mpr fun t ht h => ?_
  cases t <;> simp [Token.refersTo] at h
  · exact hcopy (h ▸ ht)
  · exact hholds (.inl (h ▸ ht))
  · exact hholds (.inr ⟨_, h ▸ ht⟩)

end Counted

open Counted in
lemma Change.counted (h : Change P s s' U U') (hnum : Numbered s U) (hpop : Populated s U) (hinv : Counted s U) : Counted s' U' := by
  cases h with
  | other hs => exact hinv.view hs
  | @recv _ _ i e e' he hq hU hs =>
    refine hinv.writeRecv hs (fun c' hside hi hc' => ?_) fun no hno => hU.count_of_ne fun hown heq => ?_
    · obtain ⟨c, hc, -⟩ := hq.channel c' hc'
      rw [hq.docNo] at hside hi ⊢
      rw [refs, refs, hc, hc'] at hU
      exact hU.count_le (hinv e.docNo c ((channelOf_recv hside (hi ▸ he) rfl).trans hc))
    · subst heq
      exact hno.elim hown.1 (· hown.2.symm)
  | @send _ _ i e e' he hq hU hs =>
    refine hinv.writeSend hs (fun c' hside hi hc' => ?_) fun no hno => hU.count_of_ne fun hown heq => ?_
    · obtain ⟨c, hc⟩ := Option.isSome_iff_exists.mp (hq.channel.symm.trans (Option.isSome_of_eq_some hc'))
      rw [hq.docNo] at hside hi ⊢
      rw [refs, refs, hc, hc'] at hU
      exact hU.count_le (hinv e.docNo c ((channelOf_send hside (hi ▸ he) rfl).trans hc))
    · subst heq
      exact hno.elim (· hown.1) (· hown.2.symm)
  | @closeRecv U docNo e t hside he hno hopen ht hc hs =>
    exact (hinv.keepRecv he (writesRecv_setRecv s _ { e with channel := none, needsSendControl := true }) rfl
      fun c hc => by cases hc).congr (congrArg View.isInitiator hs) (congrArg View.recvTable hs) (congrArg View.sendTable hs)
  | @closeSend U docNo e t hside he hno hopen ht hc hs =>
    exact (hinv.keepSend he (writesSend_setSend s _ { e with channel := none, needsSendClose := true }) rfl
      fun c hc => by cases hc).congr (congrArg View.isInitiator hs) (congrArg View.recvTable hs) (congrArg View.sendTable hs)
  | @claim U docNo e e' hside he hlt hfin hno hdoc hflag hc hs =>
    have hnot (hl : Labelled s U docNo) : False := hlt.not_ge (hnum.label docNo e hl he)
    have hzero : Token.countOf (Token.refersTo docNo) U = 0 := refs_eq_zero (fun h => hnot (.inl h)) fun h => by
      obtain h | ⟨range, h⟩ := h
      · exact hnot (.inr (.inr ⟨h, hside⟩))
      · exact hside (hnum.sending docNo range h)
    refine Counted.add (hinv.writeRecv hs (fun c _ _ _ => ?_) fun _ _ => le_rfl) (by simp [Token.refersTo])
    rw [hno, hzero]
    exact Nat.zero_le _
  | wait hside he hno hs => exact (hinv.add (by simp [Token.refersTo])).view hs
  | install he hno hdoc hs => exact hinv.left.keepRecv he hs rfl fun c hc => ⟨c, hc, rfl⟩
  | @finish U docNo e doc hside he hdoc hno hs =>
    refine hinv.writeRecv hs (fun c' hside' hi hc' => ?_) fun no hother => ?_
    · obtain ⟨c, hc, rfl⟩ := Option.map_eq_some_iff.mp hc'
      have he' : s.recvTable[s.recvIdx e.docNo]? = some e := hi ▸ he
      have hle := hinv e.docNo c ((channelOf_recv hside' he' rfl).trans hc)
      rw [Token.countOf_add, Token.countOf_singleton]
      dsimp only [OpenChannel.addRef]
      split <;> omega
    · have hne : docNo ≠ no := by
        rintro rfl
        exact hother.elim hside (· rfl)
      simp [Token.refersTo, hne]
  | reject he hdoc hs => exact hinv.keepRecv he hs rfl fun c hc => ⟨c, hc, rfl⟩
  | retire he hno hs => exact hinv.left.keepRecv he hs rfl fun c hc => by cases hc
  | @lend U docNo e c range hP hside he hno hc hr hs =>
    refine (hinv.keepSend he hs rfl fun c' hc' => ⟨c, hc, ?_⟩).add (by simp [Token.refersTo])
    cases hc'
    rfl
  | @reply _ docNo len e c range u he hno hc hs =>
    refine hinv.left.keepSend he hs rfl fun c' hc' => ⟨c, hc, ?_⟩
    cases hc'
    rfl
  | @openChannel U docNo e e' t hP hside he hfree hno hdoc hflag hc hs =>
    have hzero : Token.countOf (Token.refersTo docNo) U = 0 := refs_eq_zero (fun h => hnum.receiving _ h docNo rfl hside) fun h => by
      obtain ⟨x, hx, -, hx'⟩ := hpop docNo h hside
      cases he.symm.trans hx
      rw [hfree.2] at hx'
      cases hx'
    have ht {no : ℕ} (hne : docNo ≠ no) : ¬ t.refersTo no := by
      obtain ⟨-, rfl⟩ | ⟨range, -, rfl⟩ := hc <;> simpa [Token.refersTo] using hne
    refine hinv.writeSend hs (fun c' _ _ hc' => ?_) fun no hother => ?_
    · have hone : c'.refCount = 1 := by
        obtain ⟨hc, -⟩ | ⟨range, hc, -⟩ := hc <;> cases hc.symm.trans hc' <;> rfl
      rw [hno, Token.countOf_add, hzero, Token.countOf_singleton, hone]
      split <;> omega
    · have hne : docNo ≠ no := by
        rintro rfl
        exact hother.elim (· hside) (· rfl)
      rw [Token.countOf_add, Token.countOf_singleton, if_neg (ht hne)]
      exact le_rfl
  | forget ht hs => exact hinv.left.view hs
  | deliver hs => exact (hinv.swap fun no => by simp [Token.refersTo]).view hs
  | @clone _ docNo hc hh hs =>
    refine Counted.view (fun no c hopen => ?_) hs
    have hne : docNo ≠ no := by
      rintro rfl
      cases hc.symm.trans hopen
    rw [Token.countOf_add, Token.countOf_singleton, if_neg (by simpa [Token.refersTo] using hne)]
    exact hinv no c hopen
  | complete hc hs => exact (hinv.swap fun no => by simp [Token.refersTo]).view hs
  | count hP hs =>
    exact hinv.congr (congrArg View.isInitiator hs) (congrArg View.recvTable hs) (congrArg View.sendTable hs)

/-- The channel of a document is closed for good. -/
def Dead (s : SessionInner T) (docNo : ℕ) : Prop :=
  (s.isSending docNo ∧ ∃ e, s.sendTable[s.sendIdx docNo]? = some e ∧ e.docNo = docNo ∧ e.doc.isSome ∧ ¬ e.channel.isSome) ∨
  (¬ s.isSending docNo ∧ ∃ e, s.recvTable[s.recvIdx docNo]? = some e ∧ docNo ≤ e.docNo ∧ (e.docNo = docNo → ¬ e.channel.isSome))

lemma Dead.channelOf (h : Dead s docNo) : s.channelOf docNo = none := by
  refine Option.eq_none_iff_forall_ne_some.mpr fun c hc => ?_
  obtain ⟨x, hx, hno, hx', hside, -⟩ | ⟨x, hx, hno, hx', hside, -⟩ := channelOf_cases hc
  · obtain ⟨-, e, he, -, -, hclosed⟩ | ⟨hside', -⟩ := h
    · cases hx.symm.trans he
      exact hclosed (Option.isSome_of_eq_some hx')
    · exact hside' hside
  · obtain ⟨hside', -⟩ | ⟨-, e, he, -, hclosed⟩ := h
    · exact hside hside'
    · cases hx.symm.trans he
      exact hclosed hno (Option.isSome_of_eq_some hx')

lemma Dead.congr (h : Dead s docNo) (hi : s'.isInitiator = s.isInitiator) (hr : s'.recvTable = s.recvTable)
    (ht : s'.sendTable = s.sendTable) : Dead s' docNo := by
  have hsend : s'.sendIdx docNo = s.sendIdx docNo := sendIdx_of_eq (by rw [ht]) docNo
  have hrecv : s'.recvIdx docNo = s.recvIdx docNo := recvIdx_of_eq (by rw [hr]) docNo
  rwa [Dead, isSending_of_eq hi, hsend, hrecv, ht, hr]

lemma Change.dead (h : Change P s s' U U') (hd : Dead s docNo) : Dead s' docNo := by
  rw [Dead, h.isSending, h.sendIdx, h.recvIdx]
  obtain ⟨hside, e, he, hno, hdoc, hclosed⟩ | ⟨hside, e, he, hle, hclosed⟩ := hd
  · obtain ⟨e', he', hno', hdoc', hopen⟩ := h.kept he hdoc
    exact .inl ⟨hside, e', he', hno'.trans hno, hdoc', fun hc => hclosed (hopen hc)⟩
  · obtain ⟨e', he', hle', hopen⟩ := h.later he
    refine .inr ⟨hside, e', he', hle.trans hle', fun hno hc => ?_⟩
    have heq : e.docNo = docNo := le_antisymm (hno ▸ hle') hle
    exact hclosed heq (hopen (hno.trans heq.symm) hc)

lemma closes_of_view {v : View} (hs : s'.view = v) (hv : v.closes = s.closes) : s'.closes = s.closes :=
  (congrArg View.closes hs).trans hv

/-- A close is scheduled for an open channel, and then the channel is closed for good. -/
lemma Change.closes (h : Change P s s' U U') (hpop : Populated s U) : s'.closes = s.closes ∨
    ∃ docNo, s'.closes = s.closes ++ [docNo] ∧ s.channelOf docNo ≠ none ∧ Dead s' docNo := by
  cases h with
  | @closeRecv _ docNo e t hside he hno hopen ht hc hs =>
    have hdead : Dead (s.setRecv (s.recvIdx docNo) { e with channel := none, needsSendControl := true }) docNo :=
      .inr ⟨hside, _, (writesRecv_setRecv s _ _).written he, hno.ge, fun _ => Bool.false_ne_true⟩
    refine .inr ⟨docNo, congrArg View.closes hs, ?_,
      hdead.congr (congrArg View.isInitiator hs) (congrArg View.recvTable hs) (congrArg View.sendTable hs)⟩
    rw [channelOf_recv hside he hno]
    exact Option.isSome_iff_ne_none.mp hopen
  | @closeSend _ docNo e t hside he hno hopen ht hc hs =>
    obtain ⟨x, hx, -, hdoc⟩ := hpop docNo (hc.holds ht) hside
    cases he.symm.trans hx
    have hdead : Dead (s.setSend (s.sendIdx docNo) { e with channel := none, needsSendClose := true }) docNo :=
      .inl ⟨hside, _, (writesSend_setSend s _ _).written he, hno, hdoc, Bool.false_ne_true⟩
    refine .inr ⟨docNo, congrArg View.closes hs, ?_,
      hdead.congr (congrArg View.isInitiator hs) (congrArg View.recvTable hs) (congrArg View.sendTable hs)⟩
    rw [channelOf_send hside he hno]
    exact Option.isSome_iff_ne_none.mp hopen
  | _ => first
    | exact .inl (WritesRecv.closes ‹_›)
    | exact .inl (WritesSend.closes ‹_›)
    | exact .inl (closes_of_view ‹s'.view = _› rfl)

/-- No close was scheduled twice. -/
def ClosedOnce (s : SessionInner T) : Prop := s.closes.Nodup ∧ ∀ docNo ∈ s.closes, Dead s docNo

lemma Change.closedOnce (h : Change P s s' U U') (hpop : Populated s U) (hinv : ClosedOnce s) : ClosedOnce s' := by
  have hdead : ∀ docNo ∈ s.closes, Dead s' docNo := fun docNo hc => h.dead (hinv.2 docNo hc)
  obtain heq | ⟨docNo, heq, hopen, hd⟩ := h.closes hpop
  · rw [ClosedOnce, heq]
    exact ⟨hinv.1, hdead⟩
  · have hnot : docNo ∉ s.closes := fun hc => hopen (hinv.2 docNo hc).channelOf
    rw [ClosedOnce, heq]
    refine ⟨List.nodup_append.mpr ⟨hinv.1, List.nodup_singleton docNo, fun a ha b hb => ?_⟩, fun no hc => ?_⟩
    · rw [List.mem_singleton.mp hb]
      exact fun hab => hnot (hab ▸ ha)
    · obtain hc | hc := List.mem_append.mp hc
      · exact hdead no hc
      · rwa [List.mem_singleton.mp hc]

/-- A slot that still has to send a close has no channel any more. -/
structure Flagged (s : SessionInner T) : Prop where
  recv : ∀ (i : ℕ) (e : RecvDocMutable), s.recvTable[i]? = some e → e.needsSendControl → e.channel = none
  send : ∀ (i : ℕ) (e : SendDocMutable), s.sendTable[i]? = some e → e.needsSendClose → e.channel = none

lemma Change.flagged (h : Change P s s' U U') (hinv : Flagged s) : Flagged s' := by
  refine ⟨fun i e' he' hflag' => ?_, fun i e' he' hflag' => ?_⟩
  · obtain ⟨e, he, hslot⟩ := h.recvSlot he'
    cases hslot with
    | kept hno hopen hflag =>
      obtain hflag | hclosed := hflag hflag'
      · exact Option.not_isSome_iff_eq_none.mp fun h => Option.not_isSome_iff_eq_none.mpr (hinv.recv i e he hflag) (hopen h)
      · exact hclosed
    | claimed hside hi hlater hflag => exact absurd hflag' hflag
  · obtain ⟨e, he, hslot⟩ := h.sendSlot he'
    cases hslot with
    | kept hno hdoc hopen hflag =>
      obtain hflag | hclosed := hflag hflag'
      · exact Option.not_isSome_iff_eq_none.mp fun h => Option.not_isSome_iff_eq_none.mpr (hinv.send i e he hflag) (hopen h)
      · exact hclosed
    | opened hP hside hi hfree hdoc hflag => exact absurd hflag' hflag

/-- A channel is open only in the slot that belongs to its document. -/
structure Placed (s : SessionInner T) : Prop where
  recv : ∀ (i : ℕ) (e : RecvDocMutable), s.recvTable[i]? = some e → e.channel.isSome → ¬ s.isSending e.docNo ∧ i = s.recvIdx e.docNo
  send : ∀ (i : ℕ) (e : SendDocMutable), s.sendTable[i]? = some e → e.channel.isSome → s.isSending e.docNo ∧ i = s.sendIdx e.docNo

lemma Change.placed (h : Change P s s' U U') (hinv : Placed s) : Placed s' := by
  refine ⟨fun i e' he' hopen' => ?_, fun i e' he' hopen' => ?_⟩
  · rw [h.isSending, h.recvIdx]
    obtain ⟨e, he, hslot⟩ := h.recvSlot he'
    cases hslot with
    | kept hno hopen hflag =>
      rw [hno]
      exact hinv.recv i e he (hopen hopen')
    | claimed hside hi hlater hflag => exact ⟨hside, hi⟩
  · rw [h.isSending, h.sendIdx]
    obtain ⟨e, he, hslot⟩ := h.sendSlot he'
    cases hslot with
    | kept hno hdoc hopen hflag =>
      rw [hno]
      exact hinv.send i e he (hopen hopen')
    | opened hP hside hi hfree hdoc hflag => exact ⟨hside, hi⟩

namespace Placed

lemma channelOf_recv {e : RecvDocMutable} {c : OpenChannel} (hinv : Placed s) (he : s.recvTable[i]? = some e) (hc : e.channel = some c) :
    s.channelOf e.docNo = some c := by
  obtain ⟨hside, rfl⟩ := hinv.recv i e he (Option.isSome_of_eq_some hc)
  rw [Session.channelOf_recv hside he rfl, hc]

lemma channelOf_send {e : SendDocMutable} {c : OpenChannel} (hinv : Placed s) (he : s.sendTable[i]? = some e) (hc : e.channel = some c) :
    s.channelOf e.docNo = some c := by
  obtain ⟨hside, rfl⟩ := hinv.send i e he (Option.isSome_of_eq_some hc)
  rw [Session.channelOf_send hside he rfl, hc]

end Placed

end Pqsnet.Session
