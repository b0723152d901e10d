import Pqsnet.Session.Integrity

/-! A document that was received is handed to the application once. -/

namespace Pqsnet.Session

open Checked Outcome SessionInner

variable {T ε : Type} {s s' s'' : SessionInner T} {U V V' V'' : Multiset Token} {i n docNo : ℕ} {f : SegFrame}

def Token.isCopyOf (docNo : ℕ) : Token → Bool
  | copy no => no = docNo
  | _ => false

/-- How many copies of a document wait to be delivered. -/
def copiesOf (docNo : ℕ) (U : Multiset Token) : ℕ := Token.countOf (Token.isCopyOf docNo) U

section Counting

@[simp] lemma copiesOf_zero : copiesOf n 0 = 0 := rfl

@[simp] lemma copiesOf_add (U V : Multiset Token) : copiesOf n (U + V) = copiesOf n U + copiesOf n V := Token.countOf_add _ U V

@[simp] lemma copiesOf_singleton (t : Token) : copiesOf n {t} = if t.isCopyOf n then 1 else 0 := Token.countOf_singleton _ t

lemma copiesOf_copy (docNo : ℕ) : copiesOf n {.copy docNo} = Multiset.count n {docNo} := by
  simp [Token.isCopyOf, Multiset.count_singleton, eq_comm]

lemma copiesOf_mono (h : U ≤ V) : copiesOf n U ≤ copiesOf n V := Token.countOf_mono _ h

lemma copiesOf_eq_zero (h : ∀ t ∈ U, ¬ t.isCopyOf n) : copiesOf n U = 0 := Token.countOf_eq_zero.mpr h

lemma mem_of_copiesOf (h : 0 < copiesOf n U) : .copy n ∈ U := by
  obtain ⟨t, ht, hcopy⟩ := Token.countOf_pos.mp h
  cases t <;> simp only [Token.isCopyOf, Bool.false_eq_true] at hcopy
  rwa [← of_decide_eq_true hcopy]

@[simp] lemma copiesOf_mem (m : DocMem) (parentNo : ℕ) : copiesOf n (m.tokens parentNo) = 0 := by
  cases m <;> rfl

@[simp] lemma copiesOf_doc (d : RecvDocState) : copiesOf n d.tokens = 0 := by
  cases d with
  | active doc => exact copiesOf_mem doc.mem _
  | activeReserved | finishing | finAck | finParentClose => rfl

@[simp] lemma copiesOf_buffer (parentNo : Option ℕ) (buffer : Option BufRange) : copiesOf n (bufferTokens parentNo buffer) = 0 := by
  cases buffer <;> rfl

@[simp] lemma copiesOf_handles (cs : List Channel) : copiesOf n (handleTokens cs) = 0 := by
  refine copiesOf_eq_zero fun t ht => ?_
  obtain ⟨c, -, rfl⟩ := List.mem_map.mp (Multiset.mem_coe.mp ht)
  exact Bool.false_ne_true

@[simp] lemma copiesOf_future (fut : SendReplyFuture) : copiesOf n fut.tokens = 0 := by
  rw [SendReplyFuture.tokens]
  split <;> rfl

@[simp] lemma copiesOf_futures (futures : List SendReplyFuture) : copiesOf n (futureTokens futures) = 0 := by
  induction futures with
  | nil => rfl
  | cons fut futures ih => exact (copiesOf_add _ _).trans (by rw [copiesOf_future]; exact (zero_add _).trans ih)

section Tasks

variable (f : SegFrame) (docLen : ℕ)

lemma copiesOf_wait (c : Option OpenChannel) : copiesOf n (Task.tokens (.wait f c)) = copiesOf n (copies (channelHeld c)) := by
  rw [Task.tokens, copiesOf_add]
  exact zero_add _

lemma copiesOf_lookUp : copiesOf n (Task.tokens (.lookUp f docLen)) = 0 := rfl

lemma copiesOf_fill (buffer : Option BufRange) : copiesOf n (Task.tokens (.fill f docLen buffer)) = 0 := by
  rw [Task.tokens, copiesOf_add, copiesOf_buffer]
  rfl

lemma copiesOf_handOver (parentNo : ℕ) (isClosed : Bool) (doc : RecvDoc) :
    copiesOf n (Task.tokens (.handOver docNo parentNo isClosed doc)) = Multiset.count n {docNo} := by
  rw [Task.tokens, copiesOf_add, copiesOf_copy, copiesOf_mem, add_zero]

lemma copiesOf_dropRound : copiesOf n (Task.tokens (.dropRound docNo docLen)) = Multiset.count n {docNo} := copiesOf_copy docNo

end Tasks

lemma copiesOf_setRecv {e : RecvDocMutable} (he : s.recvTable[i]? = some e) (e' : RecvDocMutable) :
    copiesOf n (s.setRecv i e').tokens + copiesOf n (copies e.held) = copiesOf n s.tokens + copiesOf n (copies e'.held) := by
  simpa using congrArg (copiesOf n) (tokens_setRecv he e')

lemma copiesOf_setRecv_eq {e : RecvDocMutable} (he : s.recvTable[i]? = some e) (e' : RecvDocMutable) (hheld : e'.held = e.held) :
    copiesOf n (s.setRecv i e').tokens = copiesOf n s.tokens := by
  have h := copiesOf_setRecv (n := n) he e'
  rw [hheld] at h
  exact add_right_cancel h

lemma copiesOf_setSend {e : SendDocMutable} (he : s.sendTable[i]? = some e) (e' : SendDocMutable) :
    copiesOf n (s.setSend i e').tokens + copiesOf n (copies e.held) = copiesOf n s.tokens + copiesOf n (copies e'.held) := by
  simpa using congrArg (copiesOf n) (tokens_setSend he e')

lemma copiesOf_setChannel {c : OpenChannel} (hc : s.channelOf docNo = some c) (c' : Option OpenChannel) :
    copiesOf n (s.setChannel docNo c').tokens + copiesOf n (copies c.held) =
      copiesOf n s.tokens + copiesOf n (copies (channelHeld c')) := by
  simpa using congrArg (copiesOf n) (tokens_setChannel hc c')

end Counting

/-- From one point where a thread is cut to the next, there are at most these copies in addition. -/
def Grows (N : Multiset ℕ) (s : SessionInner T) (V : Multiset Token) (s' : SessionInner T) (V' : Multiset Token) : Prop :=
  ∀ n, copiesOf n (s'.tokens + V') ≤ copiesOf n (s.tokens + V) + N.count n

namespace Grows

variable {N N' : Multiset ℕ}

lemma refl : Grows 0 s V s V := fun _ => le_rfl

lemma mono (h : Grows N s V s' V') (hN : N ≤ N') : Grows N' s V s' V' := fun n =>
  (h n).trans (Nat.add_le_add_left (Multiset.count_le_of_le n hN) _)

lemma trans (h : Grows N s V s' V') (h' : Grows N' s' V' s'' V'') : Grows (N + N') s V s'' V'' := by
  intro n
  have hle := h n
  have hle' := h' n
  rw [Multiset.count_add]
  omega

lemma of_le (h : ∀ n, copiesOf n s'.tokens + copiesOf n V' ≤ copiesOf n s.tokens + copiesOf n V) : Grows 0 s V s' V' := by
  intro n
  rw [copiesOf_add, copiesOf_add, Multiset.count_zero]
  exact h n

lemma of_view (hs : s'.view = s.view) (h : ∀ n, copiesOf n V' ≤ copiesOf n V) : Grows 0 s V s' V' := by
  refine of_le fun n => ?_
  rw [tokens_of_view hs]
  exact Nat.add_le_add_left (h n) _

lemma of_doc {e : RecvDocMutable} (he : s.recvTable[i]? = some e) (doc : RecvDocState) :
    Grows 0 s V (s.setRecv i { e with doc := doc }) V := by
  refine of_le fun n => ?_
  rw [copiesOf_setRecv_eq he { e with doc := doc } rfl]

lemma frame (h : Grows N s V s' V') (R : Multiset Token) : Grows N s (V + R) s' (V' + R) := by
  intro n
  have hle := h n
  simp only [copiesOf_add] at hle ⊢
  omega

end Grows

namespace SessionInner

/-- The document was finished, or its slot went on to a later one. -/
def Finished (s : SessionInner T) (n : ℕ) : Prop :=
  ∀ e, s.recvTable[s.recvIdx n]? = some e → n ≤ e.docNo ∧ (e.docNo = n → ¬ e.doc.isActive)

/-- The document was not finished yet. -/
def Unfinished (s : SessionInner T) (n : ℕ) : Prop :=
  ∃ e, s.recvTable[s.recvIdx n]? = some e ∧ (e.docNo < n ∨ e.docNo = n ∧ e.doc.isActive)

lemma Unfinished.not_finished (h : s.Unfinished n) : ¬ s.Finished n := by
  intro hp
  obtain ⟨e, he, hopen⟩ := h
  obtain ⟨hle, hfin⟩ := hp e he
  obtain hlt | ⟨heq, hactive⟩ := hopen
  · omega
  · exact hfin heq hactive

end SessionInner

lemma Numbered.finished (h : Numbered s U) (hc : .copy n ∈ U) : s.Finished n := fun e he =>
  ⟨h.label n e (.inl hc) he, fun hno => not_isActive_of_slotIsFin (h.slotIsFin_of_mem he hno hc)⟩

section Finished

variable {P : Allows} {U' : Multiset Token} {e e' : RecvDocMutable}

lemma SessionInner.Finished.congr (h : s.Finished n) (hr : s'.recvTable = s.recvTable) : s'.Finished n := by
  rw [Finished, hr, recvIdx_of_eq (s := s) (by rw [hr])]
  exact h

lemma SessionInner.Finished.write (h : s.Finished n) (hs : s'.recvTable = s.recvTable.set i e') (he : s.recvTable[i]? = some e)
    (hlater : e.docNo < e'.docNo ∨ e'.docNo = e.docNo ∧ (e'.doc.isActive → e.doc.isActive)) : s'.Finished n := by
  intro x hx
  rw [hs, recvIdx_of_eq (s := s) (by rw [hs, List.length_set])] at hx
  obtain ⟨hi, rfl⟩ | ⟨-, hx⟩ := getElem?_set_cases hx
  · obtain ⟨hle, hfin⟩ := h e (hi ▸ he)
    obtain hlt | ⟨hno, hkeep⟩ := hlater
    · exact ⟨by omega, fun heq => absurd heq (by omega)⟩
    · exact ⟨hno ▸ hle, fun heq hactive => hfin (hno ▸ heq) (hkeep hactive)⟩
  · exact h x hx

lemma Change.finished (h : Change P s s' U U') (hp : s.Finished n) : s'.Finished n := by
  cases h with
  | recv he hq hU hs =>
    refine hp.write hs.recvTable he (.inr ⟨hq.docNo, fun hactive => ?_⟩)
    obtain hdoc | ⟨d, d', hd, -⟩ := hq.doc
    · rwa [← hdoc]
    · rw [hd]
      rfl
  | closeRecv hside he hno hopen ht hc hs => exact hp.write (congrArg View.recvTable hs) he (.inr ⟨rfl, id⟩)
  | claim hside he hlt hfin hno hdoc hflag hc hs => exact hp.write hs.recvTable he (.inl (hno ▸ hlt))
  | install he hno hdoc hs =>
    refine hp.write hs.recvTable he (.inr ⟨rfl, fun _ => ?_⟩)
    rw [hdoc]
    rfl
  | finish hside he hdoc hno hs => exact hp.write hs.recvTable he (.inr ⟨rfl, fun h => by cases h⟩)
  | reject he hdoc hs => exact hp.write hs.recvTable he (.inr ⟨rfl, fun h => by cases h⟩)
  | retire he hno hs => exact hp.write hs.recvTable he (.inr ⟨rfl, fun h => by cases h⟩)
  | other hs => exact hp.congr (recvTable_of_view hs)
  | send _ _ _ hs => exact hp.congr hs.recvTable
  | closeSend _ _ _ _ _ _ hs => exact hp.congr (congrArg View.recvTable hs)
  | lend _ _ _ _ _ _ hs => exact hp.congr hs.recvTable
  | reply _ _ _ hs => exact hp.congr hs.recvTable
  | openChannel _ _ _ _ _ _ _ _ hs => exact hp.congr hs.recvTable
  | wait _ _ _ hs => exact hp.congr (recvTable_of_view hs)
  | forget _ hs => exact hp.congr (recvTable_of_view hs)
  | deliver hs => exact hp.congr (recvTable_of_view hs)
  | clone _ _ hs => exact hp.congr (recvTable_of_view hs)
  | complete _ hs => exact hp.congr (recvTable_of_view hs)
  | count _ hs => exact hp.congr (congrArg View.recvTable hs)

end Finished

section Receiving

variable {e : RecvDocMutable} {doc : RecvDoc} {done : Done T}

lemma grows_finSection (he : s.recvTable[i]? = some e) (h : (s.finSection i docNo : Outcome ε _) = .ok done) :
    Grows {docNo} s 0 done.session (tasksTokens done.tasks) := by
  have hheld : RecvDocMutable.held { e with doc := .finishing, channel := e.channel.map OpenChannel.addRef } = e.held := by
    rw [RecvDocMutable.held, RecvDocMutable.held, channelHeld_addRef]
  obtain ⟨x, hx, h⟩ := bind_eq_ok.mp h
  cases he.symm.trans (entryAt_eq_ok hx)
  split at h
  · dsimp only at h
    split at h
    · obtain ⟨⟨isClosed, s'⟩, hcomplete, h⟩ := bind_eq_ok.mp h
      cases h
      intro n
      rw [tasksTokens_singleton, add_zero, copiesOf_add, copiesOf_handOver, tokens_of_view (view_completeDoc hcomplete),
        copiesOf_setRecv_eq he _ hheld]
    · cases h
      exact (Grows.of_doc he .finishing).mono (Multiset.zero_le _)
  · cases h

lemma grows_intoSection (he : s.recvTable[i]? = some e) (h : (s.intoSection i e doc f : Outcome ε _) = .ok done) :
    Grows {f.docNo} s 0 done.session (tasksTokens done.tasks) := by
  obtain ⟨r, hr, h⟩ := bind_eq_ok.mp h
  obtain ⟨⟨complete, doc'⟩, -, rfl⟩ | ⟨err, rfl⟩ := attempt_eq_ok hr
  · cases complete with
    | false =>
      cases h
      exact (Grows.of_doc he _).mono (Multiset.zero_le _)
    | true =>
      have hfin := (Grows.of_doc he (.active doc')).trans (grows_finSection (getElem?_set_of_getElem? he _) h)
      rwa [zero_add] at hfin
  · cases h
    exact (Grows.of_doc he e.doc).mono (Multiset.zero_le _)

lemma copiesOf_dropDocs (c : Option OpenChannel) : copiesOf n (tasksTokens (dropDocs c)) ≤ copiesOf n (copies (channelHeld c)) :=
  copiesOf_mono (tasksTokens_dropDocs c)

lemma grows_updateSection {c : Option OpenChannel} (he : s.recvTable[i]? = some e)
    (h : (s.updateSection i e f c : Outcome ε _) = .ok done) :
    Grows 0 s (copies (channelHeld c)) done.session (tasksTokens done.tasks) ∨
      (∃ doc, e.doc = .active doc) ∧ Grows {f.docNo} s (copies (channelHeld c)) done.session (tasksTokens done.tasks) := by
  rw [updateSection] at h
  split at h
  · cases h
    refine .inl (Grows.of_le fun n => ?_)
    rw [setRecv_self he, tasksTokens_singleton, copiesOf_wait]
  · rename_i doc hdoc
    obtain ⟨inner, hinto, h⟩ := bind_eq_ok.mp h
    cases h
    refine .inr ⟨⟨doc, hdoc⟩, fun n => ?_⟩
    have hgrows := grows_intoSection he hinto n
    have hdrop := copiesOf_dropDocs (n := n) c
    rw [tasksTokens_append]
    simp only [copiesOf_add, copiesOf_zero] at hgrows ⊢
    omega
  · cases h
    refine .inl (Grows.of_le fun n => ?_)
    rw [setRecv_self he]
    exact Nat.add_le_add_left (copiesOf_dropDocs c) _

/-- No document is duplicated: what comes in addition is a copy of a document that was not finished before. -/
def Frugal (s : SessionInner T) (V : Multiset Token) (s' : SessionInner T) (V' : Multiset Token) : Prop :=
  Grows 0 s V s' V' ∨ ∃ n, s.Unfinished n ∧ Grows {n} s V s' V'

lemma frugal_waitSection {c : Option OpenChannel}
    (hsteady : ∀ e doc, s.recvTable[s.recvIdx f.docNo]? = some e → e.doc = .active doc → e.docNo = f.docNo)
    (h : (s.waitSection f c : Outcome ε _) = .ok done) :
    Frugal s (Task.tokens (.wait f c)) done.session (tasksTokens done.tasks) := by
  obtain ⟨k, hk, h⟩ := bind_eq_ok.mp h
  obtain ⟨e, hentry, h⟩ := bind_eq_ok.mp h
  obtain ⟨rfl, he⟩ := exists_recv hk hentry
  have hwaiting {N : Multiset ℕ} {s' : SessionInner T} {V' : Multiset Token} (h : Grows N s (copies (channelHeld c)) s' V') :
      Grows N s (Task.tokens (.wait f c)) s' V' := by
    intro n
    rw [copiesOf_add _ (Task.tokens _), copiesOf_wait, ← copiesOf_add]
    exact h n
  obtain hquiet | ⟨⟨doc, hdoc⟩, hgrows⟩ := grows_updateSection he h
  · exact .inl (hwaiting hquiet)
  · exact .inr ⟨f.docNo, ⟨e, he, .inr ⟨hsteady e doc he hdoc, by rw [hdoc]; rfl⟩⟩, hwaiting hgrows⟩

lemma grows_fillSection {docLen : ℕ} {buffer : Option BufRange} (h : (s.fillSection f docLen buffer : Outcome ε _) = .ok done) :
    Grows {f.docNo} s (Task.tokens (.fill f docLen buffer)) done.session (tasksTokens done.tasks) := by
  obtain ⟨k, hk, h⟩ := bind_eq_ok.mp h
  obtain ⟨e, hentry, h⟩ := bind_eq_ok.mp h
  split_ifs at h
  · cases h
  obtain ⟨mem, -, h⟩ := bind_eq_ok.mp h
  intro n
  rw [copiesOf_add _ (Task.tokens _), copiesOf_fill, ← copiesOf_zero (n := n), ← copiesOf_add]
  exact grows_intoSection (entryAt_eq_ok hentry) h n

lemma grows_claimSlot (docLen : ℕ) (he : s.recvTable[i]? = some e) (hfin : e.doc.slotIsFin) : Grows 0 s 0 (s.claimSlot i e f docLen)
    (tasksTokens ((if f.isClosed then e.adoptableOrphans else []).map dropDoc ++ dropDocs e.channel)) := by
  refine Grows.of_le fun n => ?_
  have htokens := congrArg (copiesOf n) (tokens_claimSlot (f := f) docLen he hfin)
  have hdrop := copiesOf_dropDocs (n := n) e.channel
  rw [tasksTokens_append, tasksTokens_map_dropDoc]
  simp only [copiesOf_add, copiesOf_zero] at htokens ⊢
  omega

lemma frugal_createSection (he : s.recvTable[s.recvIdx f.docNo]? = some e) (hlt : e.docNo < f.docNo)
    (h : (s.createSection (s.recvIdx f.docNo) e f : Outcome ε _) = .ok done) : Frugal s 0 done.session (tasksTokens done.tasks) := by
  rw [createSection] at h
  split at h
  · cases h
    exact .inl .refl
  rename_i docLen hlen
  split at h
  · cases h
    exact .inl .refl
  rename_i hmay
  have hfin : e.doc.slotIsFin := by
    rw [Bool.not_eq_true, Bool.not_eq_false', mayClaim, Bool.and_eq_true, Bool.and_eq_true] at hmay
    exact hmay.1.1
  have hclaim := grows_claimSlot (f := f) docLen he hfin
  dsimp only at h
  generalize (if f.isClosed then e.adoptableOrphans else []).map dropDoc ++ dropDocs e.channel = dropped at h hclaim
  split at h
  · cases h
    refine .inl fun n => ?_
    rw [← List.singleton_append, tasksTokens_append, tasksTokens_singleton, copiesOf_add, copiesOf_add, copiesOf_lookUp, zero_add,
      ← copiesOf_add]
    exact hclaim n
  · obtain ⟨inner, hfill, h⟩ := bind_eq_ok.mp h
    cases h
    refine .inr ⟨f.docNo, ⟨e, he, .inl hlt⟩, fun n => ?_⟩
    have hgrows := grows_fillSection hfill n
    have hold := hclaim n
    rw [tasksTokens_append]
    simp only [copiesOf_add, copiesOf_zero, copiesOf_fill, Multiset.count_zero] at hgrows hold ⊢
    omega

lemma grows_close (f : SegFrame) (he : s.recvTable[i]? = some e) :
    Grows 0 s 0 (s.setRecv i (if f.isClosed then { e with channel := none } else e))
      (copies (channelHeld (if f.isClosed then e.channel else none))) := by
  cases f.isClosed with
  | true =>
    refine Grows.of_le fun n => ?_
    have htokens := congrArg (copiesOf n) (tokens_takeChannel he { e with channel := none } rfl rfl rfl)
    rw [copiesOf_add] at htokens
    exact htokens.le
  | false =>
    rw [if_neg Bool.false_ne_true, if_neg Bool.false_ne_true, setRecv_self he]
    exact .refl

lemma frugal_segSection (h : (s.segSection f : Outcome ε _) = .ok done) : Frugal s 0 done.session (tasksTokens done.tasks) := by
  rw [segSection] at h
  split at h
  · cases h
    exact .inl .refl
  obtain ⟨k, hk, h⟩ := bind_eq_ok.mp h
  obtain ⟨e, hentry, h⟩ := bind_eq_ok.mp h
  obtain ⟨rfl, he⟩ := exists_recv hk hentry
  split at h
  · rename_i hno
    rw [← updateSection_setRecv (if f.isClosed then { e with channel := none } else e)] at h
    have hclose := grows_close f he
    have hno' : (if f.isClosed then { e with channel := none } else e).docNo = f.docNo := by
      split <;> exact hno
    have hdoc' : (if f.isClosed then { e with channel := none } else e).doc = e.doc := by
      split <;> rfl
    generalize (if f.isClosed then { e with channel := none } else e) = e' at h hclose hno' hdoc'
    generalize (if f.isClosed then e.channel else none) = c at h hclose
    obtain hquiet | ⟨⟨doc, hdoc⟩, hgrows⟩ := grows_updateSection (getElem?_set_of_getElem? he e') h
    · exact .inl (hclose.trans hquiet)
    · refine .inr ⟨f.docNo, ⟨e, he, .inr ⟨hno, ?_⟩⟩, (hclose.trans hgrows).mono (zero_add _).le⟩
      rw [← hdoc', hdoc]
      rfl
  split at h
  · rename_i hlt
    exact frugal_createSection he hlt h
  · cases h
    exact .inl .refl

lemma grows_lendBuffer {buffer : Option BufRange} (h : (s.lendBuffer f : Outcome ε _) = .ok (buffer, s')) : Grows 0 s V s' V := by
  rw [lendBuffer] at h
  split at h
  · obtain ⟨⟨r, s''⟩, hupdate, h⟩ := bind_eq_ok.mp h
    cases h
    obtain ⟨c, b, c', hc, hg, -, rfl⟩ | ⟨-, -, rfl⟩ := updateChannel_eq_ok hupdate
    · have hheld : c'.held = c.held := by
        rw [← (Prod.mk.inj (ok_inj.mp hg)).2, OpenChannel.held, OpenChannel.held]
        cases c.replyBuffer <;> rfl
      refine Grows.of_le fun n => ?_
      have hset := copiesOf_setChannel (n := n) hc (some c')
      rw [channelHeld, hheld] at hset
      rw [add_right_cancel hset]
    · exact .refl
  · cases h
    exact .refl

variable {parentNo : ℕ} {isClosed : Bool}

lemma grows_post {c c' : OpenChannel} (hc : s.channelOf parentNo = some c) (h : (c.post docNo parentNo isClosed doc : Outcome ε _) = .ok c') :
    Grows 0 s (Task.tokens (.handOver docNo parentNo isClosed doc)) (s.setChannel parentNo (some c')) 0 := by
  refine Grows.of_le fun n => ?_
  have hset := copiesOf_setChannel (n := n) hc (some c')
  have hheld : copiesOf n (copies c'.held) = copiesOf n (copies c.held) + Multiset.count n {docNo} := by
    rw [← copiesOf_copy, ← copiesOf_add]
    rw [OpenChannel.post] at h
    split at h
    · rw [← ok_inj.mp h, OpenChannel.held, OpenChannel.held, readyHeld_append, copies_add, copies_add, copies_add, copies_singleton,
        add_right_comm]
      rfl
    · split at h
      · rename_i b hr
        rw [← ok_inj.mp h, OpenChannel.held, OpenChannel.held, hr, copies_add, copies_add, add_assoc]
        exact congrArg _ (congrArg _ (zero_add _).symm)
      · cases h
  rw [copiesOf_handOver, copiesOf_zero]
  rw [channelHeld, hheld] at hset
  omega

lemma grows_adoptLater {r : Except RecvError Unit} (h : (s.adoptLater docNo parentNo isClosed doc : Outcome ε _) = .ok (r, s')) :
    Grows 0 s (Task.tokens (.handOver docNo parentNo isClosed doc)) s' 0 := by
  refine Grows.of_le fun n => ?_
  rw [copiesOf_handOver, copiesOf_zero]
  obtain ⟨k, hk, h⟩ := bind_eq_ok.mp h
  obtain ⟨e, hentry, h⟩ := bind_eq_ok.mp h
  have he := entryAt_eq_ok hentry
  split at h
  · split at h
    · rename_i buf hmem
      cases h
      have hset := copiesOf_setRecv (n := n) he { e with
        orphansExpectedParentNo := some parentNo
        adoptableOrphans := e.adoptableOrphans ++ [⟨buf, docNo, doc.hasSpecialParent, isClosed, doc.docLen, parentNo⟩] }
      rw [RecvDocMutable.held, RecvDocMutable.held, readyHeld_append, copies_add, copies_add, copies_add, copies_singleton,
        copiesOf_add, copiesOf_add, copiesOf_add, copiesOf_copy] at hset
      change _ = _ + (_ + Multiset.count n {docNo} + copiesOf n (copies (channelHeld e.channel))) at hset
      omega
    · cases h
  · cases h
    omega

lemma grows_handOverSection (h : (s.handOverSection docNo parentNo isClosed doc : Outcome ε _) = .ok done) :
    Grows 0 s (Task.tokens (.handOver docNo parentNo isClosed doc)) done.session (tasksTokens done.tasks) := by
  have hnotOpen {no : ℕ} (h : (handOverSection.notOpen docNo parentNo isClosed doc s no : Outcome ε _) = .ok done) :
      Grows 0 s (Task.tokens (.handOver docNo parentNo isClosed doc)) done.session (tasksTokens done.tasks) := by
    rw [handOverSection.notOpen] at h
    split_ifs at h
    · cases h
      refine Grows.of_view rfl fun n => ?_
      rw [tasksTokens_singleton, copiesOf_dropRound, copiesOf_handOver]
    · cases h
      exact Grows.of_view rfl fun n => Nat.zero_le _
    · obtain ⟨⟨r, s'⟩, hadopt, h⟩ := bind_eq_ok.mp h
      cases r <;> cases h <;> exact grows_adoptLater hadopt
  rw [handOverSection] at h
  obtain ⟨⟨no, c⟩, hslot, h⟩ := bind_eq_ok.mp h
  cases c with
  | none => exact hnotOpen h
  | some c =>
    dsimp only at h
    split_ifs at h with hno
    · obtain ⟨c', hpost, h⟩ := bind_eq_ok.mp h
      have hc := channelOf_of_channelSlot hslot
      rw [if_pos hno] at hc
      cases h
      exact grows_post hc hpost
    · exact hnotOpen h

lemma grows_dropRound {docLen : ℕ} {pushed : List (ℕ × ℕ)} (h : (s.dropRound docNo docLen : Outcome ε _) = .ok (pushed, s')) :
    Grows 0 s (Task.tokens (.dropRound docNo docLen)) s' (tasksTokens (pushed.map fun p => .dropRound p.1 p.2)) := by
  rw [dropRound] at h
  dsimp only at h
  generalize hs₁ : scheduleSendControl _ variantControlFinParentClosed docNo = s₁ at h
  have hview : s₁.view = s.view := by
    rw [← hs₁, view_schedule (by decide)]
    rfl
  obtain ⟨k, hk, h⟩ := bind_eq_ok.mp h
  obtain ⟨e, hentry, h⟩ := bind_eq_ok.mp h
  have he := entryAt_eq_ok hentry
  refine Grows.of_le fun n => ?_
  have hold : copiesOf n s₁.tokens = copiesOf n s.tokens := by rw [tokens_of_view hview]
  split_ifs at h with hno hassert
  · cases h
  · have hset := copiesOf_setRecv (n := n) he { e with doc := .finParentClose, channel := none, needsSendControl := true }
    rw [RecvDocMutable.held, RecvDocMutable.held, copies_add, copies_add, copiesOf_add, copiesOf_add] at hset
    dsimp only at hset
    split at h
    · rename_i c hc
      cases h
      have hpushed : tasksTokens ((c.readyDocs.map fun d => (d.docNo, d.buf.length)).map fun p => .dropRound p.1 p.2) =
          copies (readyHeld c.readyDocs) := by
        rw [List.map_map, ← tasksTokens_map_dropDoc]
        rfl
      rw [hc, channelHeld, channelHeld, OpenChannel.held, copies_add, copiesOf_add] at hset
      rw [hpushed]
      change copiesOf n (s₁.setRecv k _).tokens + _ ≤ _
      simp only [copies_zero, copiesOf_zero] at hset
      omega
    · rename_i hc
      cases h
      rw [hc] at hset
      change copiesOf n (s₁.setRecv k _).tokens + 0 ≤ _
      omega
  · cases h
    rw [hold]
    exact Nat.add_le_add_left (Nat.zero_le _) _

end Receiving

/-- A thread that waited for a reserved slot does not find another document in it. -/
def Task.Steady (s : SessionInner T) : Task → Prop
  | .wait f _ => ∀ e doc, s.recvTable[s.recvIdx f.docNo]? = some e → e.doc = .active doc → e.docNo = f.docNo
  | _ => True

lemma Task.frugal {task : Task} {done : Done T} (hsteady : task.Steady s) (hnum : Numbered s (s.tokens + task.tokens))
    (h : (task.run s : Outcome ε _) = .ok done) : Frugal s task.tokens done.session (tasksTokens done.tasks) := by
  cases task with
  | seg f => exact frugal_segSection h
  | wait f c => exact frugal_waitSection hsteady h
  | lookUp f docLen =>
    obtain ⟨⟨buffer, s'⟩, hlend, h⟩ := bind_eq_ok.mp h
    cases h
    refine .inl fun n => ?_
    rw [tasksTokens_singleton, copiesOf_add, copiesOf_fill, ← copiesOf_lookUp (n := n) f docLen, ← copiesOf_add]
    exact grows_lendBuffer hlend n
  | fill f docLen buffer =>
    obtain ⟨e, he, hno, hdoc⟩ := hnum.claimed f.docNo
      (Multiset.mem_add.mpr (.inr (Multiset.mem_add.mpr (.inr (Multiset.mem_singleton_self _)))))
    exact .inr ⟨f.docNo, ⟨e, he, .inr ⟨hno, by rw [hdoc]; rfl⟩⟩, grows_fillSection h⟩
  | handOver docNo parentNo isClosed doc => exact .inl (grows_handOverSection h)
  | dropRound docNo docLen =>
    obtain ⟨⟨pushed, s'⟩, hdrop, h⟩ := bind_eq_ok.mp h
    cases h
    exact .inl (grows_dropRound hdrop)
  | abandon =>
    cases h
    exact .inl (Grows.of_view rfl fun _ => le_rfl)

section Application

variable {c : Channel}

lemma copiesOf_take {ch ch' : OpenChannel} {W : Multiset Token} (hc : s.channelOf docNo = some ch)
    (hheld : copies ch.held = copies ch'.held + W) : copiesOf n (s.setChannel docNo (some ch')).tokens + copiesOf n W = copiesOf n s.tokens := by
  have hset := copiesOf_setChannel (n := n) hc (some ch')
  rw [hheld, copiesOf_add] at hset
  change _ = _ + copiesOf n (copies ch'.held) at hset
  omega

lemma grows_setChannel {ch ch' : OpenChannel} (hc : s.channelOf docNo = some ch) (hheld : ch'.held = ch.held) :
    Grows 0 s V (s.setChannel docNo (some ch')) V := by
  refine Grows.of_le fun n => ?_
  have hcopies : copies ch.held = copies ch'.held + 0 := by
    rw [hheld, add_zero]
  have htake := copiesOf_take (n := n) hc hcopies
  rw [← htake]
  exact le_rfl

/-- The documents that a call hands to the application. -/
def handed : Option (Option UnfinishedRecvDoc) → Multiset ℕ
  | some (some d) => {d.docNo}
  | _ => 0

lemma Channel.copies_takeReady {r : Option (Option UnfinishedRecvDoc)} (h : (c.takeReady s : Outcome ε _) = .ok (r, s')) (n : ℕ) :
    copiesOf n s'.tokens + (handed r).count n = copiesOf n s.tokens := by
  obtain ⟨⟨r', s₁⟩, hupdate, h'⟩ := bind_eq_ok.mp h
  obtain ⟨ch, a, ch', hc, hg, rfl, rfl⟩ | ⟨-, rfl, rfl⟩ := updateChannel_eq_ok hupdate
  · obtain ⟨rfl, rfl⟩ := Prod.mk.inj (ok_inj.mp hg)
    cases hlast : ch.readyDocs.getLast? with
    | none =>
      have hnil : ch.readyDocs.dropLast = ch.readyDocs := by
        rw [List.getLast?_eq_none_iff.mp hlast]
        rfl
      rw [hlast] at h'
      obtain ⟨rfl, rfl⟩ := Prod.mk.inj (ok_inj.mp h')
      rw [hnil, setChannel_self hc]
      rfl
    | some d =>
      rw [hlast] at h'
      obtain ⟨rfl, rfl⟩ := Prod.mk.inj (ok_inj.mp h')
      have hready : readyHeld ch.readyDocs = readyHeld ch.readyDocs.dropLast + {.ready d} := by
        rw [← readyHeld_append, List.dropLast_append_getLast? d hlast]
      rw [handed, ← copiesOf_copy]
      refine copiesOf_take hc ?_
      rw [OpenChannel.held, OpenChannel.held, hready, copies_add, copies_add, copies_add, copies_singleton, add_right_comm]
      rfl
  · obtain ⟨rfl, rfl⟩ := Prod.mk.inj (ok_inj.mp h')
    rfl

lemma Channel.grows_clone {c' : Channel} (h : (c.clone s : Outcome ε _) = .ok (c', s')) : Grows 0 s V s' V := by
  obtain ⟨⟨r, s₁⟩, hupdate, h'⟩ := bind_eq_ok.mp h
  cases h'
  obtain ⟨ch, a, ch', hc, hg, -, rfl⟩ | ⟨-, -, rfl⟩ := updateChannel_eq_ok hupdate
  · obtain ⟨count, -, hg⟩ := bind_eq_ok.mp hg
    obtain ⟨-, rfl⟩ := Prod.mk.inj (ok_inj.mp hg)
    exact grows_setChannel hc rfl
  · exact .refl

lemma Channel.grows_closeSection {g : OpenChannel → Outcome ε (Bool × OpenChannel)} {done : Done T}
    (hg : ∀ ch close ch', g ch = .ok (close, ch') → ch'.held = ch.held) (h : c.closeSection g s = .ok done) :
    Grows 0 s V done.session (tasksTokens done.tasks + V) := by
  obtain ⟨ch, close, ch', hc, hclose, rfl⟩ | ⟨-, rfl⟩ := closeSection_eq_ok h
  · have hheld := hg ch close ch' hclose
    split_ifs
    · refine Grows.of_le fun n => ?_
      have hdrop := copiesOf_dropDocs (n := n) (some ch')
      have hset : copiesOf n (c.markClose (s.setChannel c.docNo none)).tokens + copiesOf n (copies ch.held) = copiesOf n s.tokens := by
        obtain ⟨e, -, he, -, hch, hmark⟩ | ⟨e, -, he, -, hch, hmark⟩ := closing_cases hc
        · have hset := copiesOf_setSend (n := n) he { e with channel := none, needsSendClose := true }
          rw [SendDocMutable.held, SendDocMutable.held, hch] at hset
          rw [hmark]
          exact hset
        · rw [hmark, ← copiesOf_add]
          have htake := tokens_takeChannel he { e with channel := none, needsSendControl := true } rfl rfl rfl
          rw [hch] at htake
          exact congrArg _ htake
      rw [channelHeld, hheld] at hdrop
      rw [copiesOf_add]
      change copiesOf n (c.markClose (s.setChannel c.docNo none)).tokens + (copiesOf n (tasksTokens (dropDocs (some ch'))) + _) ≤ _
      omega
    · refine Grows.mono (N := 0) (fun n => ?_) le_rfl
      have hset := grows_setChannel (V := V) hc hheld n
      rwa [tasksTokens, List.map_nil, List.sum_nil, zero_add]
  · intro n
    rw [tasksTokens, List.map_nil, List.sum_nil, zero_add]
    exact le_rfl

lemma Channel.grows_dropSection {done : Done T} (h : (c.dropSection s : Outcome ε _) = .ok done) :
    Grows 0 s V done.session (tasksTokens done.tasks + V) := by
  refine grows_closeSection (fun ch close ch' hg => ?_) h
  obtain ⟨count, -, hg⟩ := bind_eq_ok.mp hg
  rw [← (Prod.mk.inj (ok_inj.mp hg)).2]
  rfl

/-- The document that a future gets for a reply. -/
def SendReplyFuture.Polled.handed : SendReplyFuture.Polled → Multiset ℕ
  | .ready _ c => {c.docNo}
  | _ => 0

lemma SendReplyFuture.copies_pollSent {r : Polled} (h : (pollSent c s : Outcome ε _) = .ok (r, s')) (n : ℕ) :
    copiesOf n s'.tokens + r.handed.count n = copiesOf n s.tokens := by
  obtain ⟨⟨r', s₁⟩, hupdate, h'⟩ := bind_eq_ok.mp h
  obtain ⟨ch, a, ch', hc, hg, rfl, rfl⟩ | ⟨-, rfl, rfl⟩ := updateChannel_eq_ok hupdate
  · have hg := ok_inj.mp hg
    rw [takeReply] at hg
    split at hg
    · obtain ⟨rfl, rfl⟩ := Prod.mk.inj hg
      obtain ⟨rfl, rfl⟩ := Prod.mk.inj (ok_inj.mp h')
      rw [setChannel_self hc]
      rfl
    · rename_i len u hreply
      obtain ⟨rfl, rfl⟩ := Prod.mk.inj hg
      obtain ⟨rfl, rfl⟩ := Prod.mk.inj (ok_inj.mp h')
      rw [Polled.handed, ← copiesOf_copy]
      refine copiesOf_take hc ?_
      rw [OpenChannel.held, OpenChannel.held, hreply, copies_add, copies_add, add_assoc]
      exact congrArg _ (zero_add _).symm
    · obtain ⟨rfl, rfl⟩ := Prod.mk.inj hg
      obtain ⟨rfl, rfl⟩ := Prod.mk.inj (ok_inj.mp h')
      rw [setChannel_self hc]
      rfl
  · obtain ⟨rfl, rfl⟩ := Prod.mk.inj (ok_inj.mp h')
    rfl

lemma Call.grows_step {call : Call} {next : Call.Next} (h : (call.step s : Outcome ε _) = .ok (next, s')) : Grows 0 s V s' V := by
  have htables (hr : s'.recvTable = s.recvTable) (ht : s'.sendTable = s.sendTable) : Grows 0 s V s' V := by
    refine Grows.of_le fun n => ?_
    rw [tokens_of_tables hr ht]
  cases Call.accessed h with
  | enter | undo | weigh | unload | draw => exact htables rfl rfl
  | refuse | accept | skip => exact .refl
  | @take docNo e hp he hfree =>
    refine Grows.of_le fun n => ?_
    have hset := copiesOf_setSend (n := n) he
      ⟨docNo, false, some ⟨docNo, call.hasSpecialParent, false, 0, call.doc⟩, some ⟨1, [], call.replyBuffer⟩⟩
    have hnew : copiesOf n (copies (OpenChannel.held ⟨1, [], call.replyBuffer⟩)) = 0 := by
      rw [OpenChannel.held, Call.replyBuffer]
      split <;> rfl
    change _ = copiesOf n s.tokens + copiesOf n (copies (OpenChannel.held ⟨1, [], call.replyBuffer⟩)) at hset
    omega

lemma Handled.grows {found : Prop} {before packets : List PacketBuilder} (hd : Handled found before s i docNo s' packets) :
    Grows 0 s V s' V := by
  refine Grows.of_le fun n => ?_
  cases hd with
  | idle hs hput => rw [tokens_of_view hs]
  | @seg e seg doc he hno hdoc hseg hclosed hput hs =>
    have hset := copiesOf_setSend (n := n) he { e with doc := some doc, needsSendClose := false }
    rw [tokens_of_view (s := s.setSend i _) hs]
    exact Nat.add_le_add_right (add_right_cancel hset).le _
  | @close e variant he hno hv hput hs =>
    have hset := copiesOf_setSend (n := n) he { e with needsSendClose := false }
    rw [tokens_of_view (s := s.setSend i _) hs]
    exact Nat.add_le_add_right (add_right_cancel hset).le _
  | @control e he hno hflag hput hs =>
    rw [tokens_of_view (s := s.setRecv i _) hs, copiesOf_setRecv_eq he { e with needsSendControl := false } rfl]

end Application

lemma Frugal.frame (h : Frugal s V s' V') (R : Multiset Token) : Frugal s (V + R) s' (V' + R) :=
  h.imp (·.frame R) fun ⟨n, hn, hgrows⟩ => ⟨n, hn, hgrows.frame R⟩

namespace Machine

variable {C : Machine T → ℕ → Prop} {m m' m₀ : Machine T}

def Steady (m : Machine T) : Prop := ∀ tasks ∈ m.threads, ∀ t ∈ tasks, t.Steady m.session

/-- Any number of steps, and no thread that waited for a reserved slot finds another document in it. -/
abbrev SteadyRun (C : Machine T → ℕ → Prop) : Machine T → Machine T → Prop := Relation.ReflTransGen fun m m' => m.Steady ∧ Step C m m'

lemma SteadyRun.run (h : SteadyRun C m₀ m) : Run C m₀ m := Relation.ReflTransGen.mono (fun _ _ hstep => hstep.2) _ _ h

lemma copiesOf_hands (m : Machine T) : copiesOf n m.hands = copiesOf n (threadTokens m.threads) := by
  rw [hands, copiesOf_add, copiesOf_add, copiesOf_handles, copiesOf_futures, add_zero, add_zero]

lemma frugal_of_threads (h : Grows 0 m.session m.hands m'.session m.hands) (ht : m'.threads = m.threads) :
    Frugal m.session m.hands m'.session m'.hands := by
  refine .inl fun n => ?_
  rw [copiesOf_add, copiesOf_hands, ht, ← copiesOf_hands, ← copiesOf_add]
  exact h n

lemma frugal_of_spawn {done : Done T} (h : Grows 0 m.session m.hands done.session (tasksTokens done.tasks + m.hands))
    (hs : m'.session = done.session) (ht : m'.threads = m.threads ++ [done.tasks]) :
    Frugal m.session m.hands m'.session m'.hands := by
  refine .inl fun n => ?_
  rw [copiesOf_add, copiesOf_hands, ht, threadTokens_append, copiesOf_add, ← copiesOf_hands, add_comm (copiesOf n m.hands), hs,
    ← copiesOf_add, ← copiesOf_add]
  exact h n

lemma Step.frugal (h : Step C m m') (hm : m.Sound) (hsteady : m.Steady) : Frugal m.session m.hands m'.session m'.hands := by
  cases h with
  | recvSeg f =>
    refine .inl (Grows.of_le fun n => ?_)
    rw [copiesOf_hands, copiesOf_hands, threadTokens_append, copiesOf_add]
    exact le_rfl
  | @run k task rest done hk h =>
    obtain ⟨R, hbefore, hafter⟩ : ∃ R, m.hands = task.tokens + R ∧ (m.resume k rest done).hands = tasksTokens done.tasks + R :=
      hands_resume hk
    have hmem := List.mem_of_getElem? hk
    have hnum := hm.coherent.numbered.mono (task_le hmem List.mem_cons_self)
    rw [hbefore, hafter]
    exact (Task.frugal (hsteady _ hmem task List.mem_cons_self) hnum h).frame R
  | @takeReady c r s hc h =>
    refine frugal_of_threads (Grows.of_le fun n => ?_) rfl
    exact Nat.add_le_add_right (Nat.le_of_add_right_le (Channel.copies_takeReady h n).le) _
  | clone hc h => exact frugal_of_threads (Channel.grows_clone h) rfl
  | drop hc h => exact frugal_of_spawn (Channel.grows_dropSection h) rfl rfl
  | closeIf b hc h =>
    refine frugal_of_spawn (Channel.grows_closeSection (fun ch close ch' hg => ?_) h) rfl rfl
    rw [← (Prod.mk.inj (ok_inj.mp hg)).2]
  | trySend | sendWithReplyBuffer | pollSending | dropSending => exact frugal_of_threads .refl rfl
  | @pollSent fut reply r s hf hs h =>
    have hgrows : Grows 0 m.session m.hands s m.hands := Grows.of_le fun n =>
      Nat.add_le_add_right (Nat.le_of_add_right_le (SendReplyFuture.copies_pollSent h n).le) _
    cases r <;> exact frugal_of_threads hgrows rfl
  | dropSent hf hs hC h => exact frugal_of_spawn (Channel.grows_dropSection h) rfl rfl
  | @send k call next s hk h =>
    refine frugal_of_threads ?_ Genuine.threads_advance
    rw [session_advance]
    exact Call.grows_step h
  | @sendDoc tx tx' docNo htx h =>
    have hleads : Leads (Handled True tx.packets tx.session (tx.session.docIdx docNo) docNo) (SessionInner.sendDoc tx docNo) := leads_sendDoc
    rw [h, htx] at hleads
    exact frugal_of_threads (Handled.grows hleads) rfl
  | @lastDoc tx out docNo htx h =>
    have hleads : Leads (Handled True tx.packets tx.session (tx.session.docIdx docNo) docNo) (SessionInner.sendDoc tx docNo) := leads_sendDoc
    rw [h, htx] at hleads
    exact frugal_of_threads (Handled.grows hleads) rfl
  | @sendRetry tx tx' docNo htx h =>
    have hleads : Leads (Handled False tx.packets tx.session (m.session.sendIdx docNo) docNo) _ := leads_sendRetry False.elim
    rw [h, htx] at hleads
    exact frugal_of_threads (Handled.grows hleads) rfl
  | @lastRetry tx out docNo htx h =>
    have hleads : Leads (Handled False tx.packets tx.session (m.session.sendIdx docNo) docNo) _ := leads_sendRetry False.elim
    rw [h, htx] at hleads
    exact frugal_of_threads (Handled.grows hleads) rfl

/-- There is at most one copy of each document. -/
def Single (m : Machine T) : Prop := ∀ n, copiesOf n m.tokens ≤ 1

/-- The document was finished, and there is no copy of it any more. -/
structure Gone (m : Machine T) (n : ℕ) : Prop where
  copies : copiesOf n m.tokens = 0
  finished : m.session.Finished n

lemma copies_eq_zero (hm : m.Sound) (hn : m.session.Unfinished n) : copiesOf n m.tokens = 0 := by
  by_contra hpos
  exact hn.not_finished (hm.coherent.numbered.finished (mem_of_copiesOf (Nat.pos_of_ne_zero hpos)))

lemma Step.single (h : Step C m m') (hm : m.Sound) (hsteady : m.Steady) (hone : m.Single) : m'.Single := by
  intro n
  obtain hgrows | ⟨k, hk, hgrows⟩ := h.frugal hm hsteady
  · exact (hgrows n).trans (hone n)
  · have hn := hgrows n
    rw [Multiset.count_singleton] at hn
    change copiesOf n m'.tokens ≤ copiesOf n m.tokens + _ at hn
    split_ifs at hn with heq
    · rw [heq, copies_eq_zero hm hk] at hn
      rwa [heq]
    · exact hn.trans (hone n)

lemma Step.gone (h : Step C m m') (hm : m.Sound) (hsteady : m.Steady) (hgone : m.Gone n) : m'.Gone n := by
  obtain ⟨P, -, hturn⟩ := (h.moved hm.coherent).turn hm
  refine ⟨Nat.le_zero.mp ?_, Changes.keeps hturn Change.finished hgone.finished⟩
  obtain hgrows | ⟨k, hk, hgrows⟩ := h.frugal hm hsteady
  · exact (hgrows n).trans hgone.copies.le
  · have hn := hgrows n
    have hne : n ≠ k := by
      rintro rfl
      exact hk.not_finished hgone.finished
    rw [Multiset.count_singleton, if_neg hne] at hn
    exact hn.trans hgone.copies.le

lemma Initial.single (hm : m.Initial) : m.Single := fun n => by
  rw [hm.tokens, copiesOf_handles]
  exact Nat.zero_le 1

lemma SteadyRun.one_copy (h : SteadyRun C m₀ m) (hm₀ : m₀.Initial) : m.Single := by
  induction h with
  | refl => exact hm₀.single
  | tail hrun hstep ih => exact hstep.2.single (Run.sound (SteadyRun.run hrun) hm₀.sound) hstep.1 ih

lemma SteadyRun.gone (h : SteadyRun C m m') (hm : m.Sound) (hgone : m.Gone n) : m'.Gone n := by
  induction h with
  | refl => exact hgone
  | tail hrun hstep ih => exact hstep.2.gone (Run.sound (SteadyRun.run hrun) hm) hstep.1 ih

end Machine

/-- A call by which the application may get document `n` now. -/
inductive SessionInner.Offers (s : SessionInner T) (n : ℕ) : Prop
  | tryRecv {c c' : Channel} {buf : List (Option UInt8)} {s' : SessionInner T}
      (h : (c.tryRecv s : Outcome Empty _) = .ok (.ok (some (buf, c')), s')) (hn : c'.docNo = n) : Offers s n
  | pollRecv {c c' : Channel} {buf : List (Option UInt8)} {s' : SessionInner T}
      (h : (c.pollRecv s : Outcome Empty _) = .ok (some (.ok (buf, c')), s')) (hn : c'.docNo = n) : Offers s n
  | pollSent {reply c' : Channel} {len : ℕ} {s' : SessionInner T}
      (h : (SendReplyFuture.pollSent reply s : Outcome Empty _) = .ok (.ready len c', s')) (hn : c'.docNo = n) : Offers s n

lemma SessionInner.Offers.copies_pos (h : s.Offers n) : 0 < copiesOf n s.tokens := by
  have htake {c c' : Channel} {buf : List (Option UInt8)} {s' : SessionInner T} (hn : c'.docNo = n)
      (h : (c.tryRecv s : Outcome Empty _) = .ok (.ok (some (buf, c')), s') ∨
        (c.pollRecv s : Outcome Empty _) = .ok (some (.ok (buf, c')), s')) : 0 < copiesOf n s.tokens := by
    obtain ⟨d, htake, hd⟩ := Channel.exists_takeReady h
    cases hd
    subst hn
    rw [← Channel.copies_takeReady htake, handed, Multiset.count_singleton_self]
    exact Nat.succ_pos _
  cases h with
  | tryRecv h hn => exact htake hn (.inl h)
  | pollRecv h hn => exact htake hn (.inr h)
  | @pollSent reply c' len s' h hn =>
    subst hn
    rw [← SendReplyFuture.copies_pollSent h, SendReplyFuture.Polled.handed, Multiset.count_singleton_self]
    exact Nat.succ_pos _

namespace Machine

variable {C : Machine T → ℕ → Prop} {m m' m₀ : Machine T}

lemma Gone.not_offers (h : m.Gone n) : ¬ m.session.Offers n := by
  intro hoffers
  have hpos := hoffers.copies_pos
  have hnone := h.copies
  rw [Machine.tokens, copiesOf_add] at hnone
  omega

lemma Step.handed_out (h : Step C m m') (hm : m.Sound) (hone : m.Single) (hlost : copiesOf n m'.tokens + 1 = copiesOf n m.tokens) :
    m'.Gone n := by
  have hle := hone n
  obtain ⟨P, -, hturn⟩ := (h.moved hm.coherent).turn hm
  have hfinished := hm.coherent.numbered.finished (mem_of_copiesOf (n := n) (by omega))
  exact ⟨by omega, Changes.keeps hturn Change.finished hfinished⟩

/-- Whatever the interleaving of the threads and whatever the peer sends: a document that the application got is never given to it
again, neither by a channel nor as a reply. -/
theorem delivered_once (hm₀ : m₀.Initial) (hrun : SteadyRun C m₀ m) :
    (∀ c ∈ m.handles, ∀ (c' : Channel) (buf : List (Option UInt8)) (s : SessionInner T),
      (c.tryRecv m.session : Outcome Empty _) = .ok (.ok (some (buf, c')), s) ∨
        (c.pollRecv m.session : Outcome Empty _) = .ok (some (.ok (buf, c')), s) →
      ∀ m', SteadyRun C { m with session := s, handles := m.handles ++ [c'] } m' → ¬ m'.session.Offers c'.docNo) ∧
    ∀ fut ∈ m.futures, ∀ reply, fut.state = .sent reply → ∀ (c' : Channel) (len : ℕ) (s : SessionInner T),
      (SendReplyFuture.pollSent reply m.session : Outcome Empty _) = .ok (.ready len c', s) →
      ∀ m', SteadyRun C (m.polled fut reply s (.ready len c')) m' → ¬ m'.session.Offers c'.docNo := by
  have hm : m.Sound := Run.sound (SteadyRun.run hrun) hm₀.sound
  have hone := hrun.one_copy hm₀
  have hnever {m₁ : Machine T} {n : ℕ} (hstep : Step C m m₁) (hcopies : copiesOf n m₁.session.tokens + 1 = copiesOf n m.session.tokens)
      (ht : m₁.threads = m.threads) (m' : Machine T) (hrun' : SteadyRun C m₁ m') : ¬ m'.session.Offers n := by
    refine (SteadyRun.gone hrun' ((hstep.moved hm.coherent).sound hm) (hstep.handed_out hm hone ?_)).not_offers
    rw [Machine.tokens, Machine.tokens, copiesOf_add, copiesOf_add, copiesOf_hands, copiesOf_hands, ht]
    omega
  refine ⟨fun c hc c' buf s h => ?_, fun fut hf reply hs c' len s h => ?_⟩
  · obtain ⟨d, htake, hd⟩ := Channel.exists_takeReady h
    cases hd
    have hcopies := Channel.copies_takeReady htake d.docNo
    rw [handed, Multiset.count_singleton_self] at hcopies
    exact hnever (.takeReady hc htake) hcopies rfl
  · have hcopies := SendReplyFuture.copies_pollSent h c'.docNo
    rw [SendReplyFuture.Polled.handed, Multiset.count_singleton_self] at hcopies
    exact hnever (.pollSent hf hs h) hcopies rfl

lemma Steady.of_idle (hm : m.threads = []) : m.Steady := fun _ ht => absurd (hm ▸ ht) List.not_mem_nil

lemma Steady.of_thread {tasks : List Task} (hm : m.threads = [tasks]) (ht : ∀ t ∈ tasks, t.Steady m.session) : m.Steady := by
  rw [Steady, hm, List.forall_mem_singleton]
  exact ht

lemma steady_singleton {task : Task} (h : task.Steady s) : ∀ t ∈ [task], Task.Steady s t := List.forall_mem_singleton.mpr h

theorem delivered_once_child : ∃ (m : Machine ℕ) (s : SessionInner ℕ), SteadyRun (fun _ _ => True) oneHandle m ∧
    (Channel.tryRecv ⟨0, false, false⟩ m.session : Outcome Empty _) = .ok (.ok (some ([some 7], ⟨2, false, false⟩)), s) ∧
    ∀ m', SteadyRun (fun _ _ => True) { m with session := s, handles := m.handles ++ [⟨2, false, false⟩] } m' → ¬ m'.session.Offers 2 := by
  have hseg : SteadyRun (fun _ _ => True) oneHandle _ := .single ⟨.of_idle rfl, .recvSeg childFrame⟩
  have hfill := hseg.tail ⟨.of_thread rfl (steady_singleton trivial), .run (k := 0) rfl rfl⟩
  have hpost := hfill.tail ⟨.of_thread rfl (steady_singleton trivial), .run (k := 0) rfl rfl⟩
  exact ⟨_, _, hpost, rfl, (delivered_once oneHandle_initial hpost).1 _ (List.mem_singleton_self _) _ _ _ (.inl rfl)⟩

end Machine

end Pqsnet.Session
