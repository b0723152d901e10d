import Pqsnet.Session.Buffers
import Pqsnet.Session.Receiving

/-! What a thread does between two points where it is cut is made of small changes. -/

namespace Pqsnet.Session

open Checked Outcome SessionInner

variable {T ε : Type} {P : Allows} {s s' : SessionInner T} {U U' V V' W : Multiset Token} {i docNo : ℕ} {t : Token} {f : SegFrame}

section Inversion

lemma slot_eq_ok {len k : ℕ} (h : (slot docNo len : Outcome ε ℕ) = .ok k) : k = (docNo >>> 1) % len := by
  unfold slot at h
  split at h
  · cases h
  · exact (ok_inj.mp h).symm

lemma entryAt_eq_ok {α : Type} {table : List α} {x : α} (h : (entryAt table i : Outcome ε α) = .ok x) : table[i]? = some x := by
  unfold entryAt at h
  split at h
  · rename_i y hy
    rw [hy, ok_inj.mp h]
  · cases h

lemma exists_recv {k : ℕ} {e : RecvDocMutable} (hk : (slot docNo s.recvTable.length : Outcome ε ℕ) = .ok k)
    (he : (entryAt s.recvTable k : Outcome ε _) = .ok e) : k = s.recvIdx docNo ∧ s.recvTable[s.recvIdx docNo]? = some e := by
  obtain rfl := slot_eq_ok hk
  exact ⟨rfl, entryAt_eq_ok he⟩

lemma channelSlot_eq_ok {no : ℕ} {c : Option OpenChannel} (h : (s.channelSlot docNo : Outcome ε _) = .ok (no, c)) :
    (s.isSending docNo ∧ ∃ e, s.sendTable[s.sendIdx docNo]? = some e ∧ e.docNo = no ∧ e.channel = c) ∨
    (¬ s.isSending docNo ∧ ∃ e, s.recvTable[s.recvIdx docNo]? = some e ∧ e.docNo = no ∧ e.channel = c) := by
  unfold channelSlot at h
  split at h
  all_goals
    rename_i hside
    obtain ⟨k, hk, h⟩ := bind_eq_ok.mp h
    obtain rfl := slot_eq_ok hk
    obtain ⟨e, he, h⟩ := bind_eq_ok.mp h
    obtain ⟨hno, hc⟩ := Prod.mk.inj (ok_inj.mp h)
  · exact .inl ⟨hside, e, entryAt_eq_ok he, hno, hc⟩
  · exact .inr ⟨hside, e, entryAt_eq_ok he, hno, hc⟩

lemma channelOf_of_channelSlot {no : ℕ} {c : Option OpenChannel} (h : (s.channelSlot docNo : Outcome ε _) = .ok (no, c)) :
    s.channelOf docNo = if no = docNo then c else none := by
  obtain ⟨hside, e, he, rfl, rfl⟩ | ⟨hside, e, he, rfl, rfl⟩ := channelSlot_eq_ok h
  · rw [SessionInner.channelOf, if_pos hside, he, Option.bind_some]
  · rw [SessionInner.channelOf, if_neg hside, he, Option.bind_some]

lemma updateChannel_eq_ok {α : Type} {g : OpenChannel → Outcome ε (α × OpenChannel)} {r : Option α}
    (h : s.updateChannel docNo g = .ok (r, s')) :
    (∃ c a c', s.channelOf docNo = some c ∧ g c = .ok (a, c') ∧ r = some a ∧ s' = s.setChannel docNo (some c')) ∨
    (s.channelOf docNo = none ∧ r = none ∧ s' = s) := by
  unfold updateChannel at h
  obtain ⟨⟨no, c⟩, hslot, h⟩ := bind_eq_ok.mp h
  have hc := channelOf_of_channelSlot hslot
  cases c with
  | none =>
    obtain ⟨rfl, rfl⟩ := Prod.mk.inj (ok_inj.mp h)
    exact .inr ⟨by rw [hc, ite_self], rfl, rfl⟩
  | some c =>
    dsimp only at h
    split_ifs at h with hno
    · obtain ⟨⟨a, c'⟩, hg, h⟩ := bind_eq_ok.mp h
      obtain ⟨rfl, rfl⟩ := Prod.mk.inj (ok_inj.mp h)
      exact .inl ⟨c, a, c', by rw [hc, if_pos hno], hg, rfl, rfl⟩
    · obtain ⟨rfl, rfl⟩ := Prod.mk.inj (ok_inj.mp h)
      exact .inr ⟨by rw [hc, if_neg hno], rfl, rfl⟩

end Inversion

section Accounts

lemma copies_add (a b : Multiset Undelivered) : copies (a + b) = copies a + copies b := Multiset.map_add _ a b

@[simp] lemma copies_zero : copies 0 = 0 := rfl

lemma copies_singleton (u : Undelivered) : copies {u} = {.copy u.docNo} := Multiset.map_singleton _ u

lemma lent_setRecv {e : RecvDocMutable} (he : s.recvTable[i]? = some e) (e' : RecvDocMutable) :
    (s.setRecv i e').lent + e.doc.tokens = s.lent + e'.doc.tokens :=
  sum_map_set (fun e : RecvDocMutable => e.doc.tokens) he e'

lemma tokens_setRecv {e : RecvDocMutable} (he : s.recvTable[i]? = some e) (e' : RecvDocMutable) :
    (s.setRecv i e').tokens + (copies e.held + e.doc.tokens) = s.tokens + (copies e'.held + e'.doc.tokens) := by
  rw [SessionInner.tokens, SessionInner.tokens, add_add_add_comm, ← copies_add, held_setRecv he, lent_setRecv he, copies_add,
    add_add_add_comm]

lemma tokens_setSend {e : SendDocMutable} (he : s.sendTable[i]? = some e) (e' : SendDocMutable) :
    (s.setSend i e').tokens + copies e.held = s.tokens + copies e'.held := by
  have hheld := congrArg copies (held_setSend he e')
  rw [copies_add, copies_add] at hheld
  rw [SessionInner.tokens, SessionInner.tokens, add_right_comm, hheld, add_right_comm]
  rfl

lemma tokens_setChannel {c : OpenChannel} (hc : s.channelOf docNo = some c) (c' : Option OpenChannel) :
    (s.setChannel docNo c').tokens + copies c.held = s.tokens + copies (channelHeld c') := by
  have hheld := congrArg copies (held_setChannel hc c')
  rw [copies_add, copies_add] at hheld
  have hlent : (s.setChannel docNo c').lent = s.lent := by
    obtain ⟨e, he, -, -, -, hset⟩ | ⟨e, he, -, -, -, hset⟩ := channelOf_cases hc
    · rw [hset]
      rfl
    · rw [hset]
      exact add_right_cancel (lent_setRecv he { e with channel := c' })
  rw [SessionInner.tokens, SessionInner.tokens, add_right_comm, hheld, add_right_comm, hlent]

lemma tokens_setRecv_eq {e : RecvDocMutable} (he : s.recvTable[i]? = some e) (e' : RecvDocMutable) (hheld : e'.held = e.held)
    (hdoc : e'.doc.tokens = e.doc.tokens) : (s.setRecv i e').tokens = s.tokens := by
  have h := tokens_setRecv he e'
  rw [hheld, hdoc] at h
  exact add_right_cancel h

lemma tokens_of_tables (hr : s'.recvTable = s.recvTable) (ht : s'.sendTable = s.sendTable) : s'.tokens = s.tokens := by
  rw [SessionInner.tokens, SessionInner.tokens, SessionInner.held, SessionInner.held, SessionInner.lent, SessionInner.lent, hr, ht]

lemma tokens_of_view (hs : s'.view = s.view) : s'.tokens = s.tokens := tokens_of_tables (recvTable_of_view hs) (sendTable_of_view hs)

end Accounts

/-- A buffer that was taken out of the channel of a parent. -/
def bufferTokens (parentNo : Option ℕ) : Option BufRange → Multiset Token
  | some range => {.buffer (parentNo.getD 0) range}
  | none => 0

@[simp] lemma bufferTokens_none (parentNo : Option ℕ) : bufferTokens parentNo none = 0 := rfl

/-- What a task has in hand. -/
def Task.tokens : Task → Multiset Token
  | seg _ => 0
  | wait f closedChannel => {.waiting f.docNo} + copies (channelHeld closedChannel)
  | lookUp f _ => {.claim f.docNo}
  | fill f _ buffer => bufferTokens f.parentNo buffer + {.claim f.docNo}
  | handOver docNo parentNo _ doc => {.copy docNo} + doc.mem.tokens parentNo
  | dropRound docNo _ => {.copy docNo}
  | abandon => 0

def tasksTokens (tasks : List Task) : Multiset Token := (tasks.map Task.tokens).sum

lemma tasksTokens_append (a b : List Task) : tasksTokens (a ++ b) = tasksTokens a + tasksTokens b := by
  rw [tasksTokens, List.map_append, List.sum_append]
  rfl

lemma tasksTokens_singleton (task : Task) : tasksTokens [task] = task.tokens := by
  rw [tasksTokens, List.map_singleton, List.sum_singleton]

lemma tasksTokens_map_dropDoc (docs : List UnfinishedRecvDoc) : tasksTokens (docs.map dropDoc) = copies (readyHeld docs) := by
  induction docs with
  | nil => rfl
  | cons d docs ih =>
    have hready : readyHeld (d :: docs) = {.ready d} + readyHeld docs := rfl
    rw [List.map_cons, ← List.singleton_append, tasksTokens_append, ih, tasksTokens_singleton, hready, copies_add, copies_singleton]
    rfl

lemma tasksTokens_dropDocs (c : Option OpenChannel) : tasksTokens (dropDocs c) ≤ copies (channelHeld c) := by
  cases c with
  | none => exact le_rfl
  | some c =>
    rw [dropDocs, tasksTokens_map_dropDoc, channelHeld, OpenChannel.held, copies_add]
    refine le_of_eq_of_le (congrArg copies ?_) (Multiset.le_add_right _ _)
    rw [readyHeld, List.map_reverse, Multiset.coe_reverse]
    rfl

/-- From one point where a thread is cut to the next, with what the thread has in hand at either. -/
def Turn (P : Allows) (s : SessionInner T) (V : Multiset Token) (s' : SessionInner T) (V' : Multiset Token) : Prop :=
  Changes P s (s.tokens + V) s' (s'.tokens + V')

namespace Turn

variable {s'' : SessionInner T} {V'' : Multiset Token}

lemma refl : Turn P s V s V := Changes.refl

lemma trans (h : Turn P s V s' V') (h' : Turn P s' V' s'' V'') : Turn P s V s'' V'' := Changes.trans h h'

lemma frame (h : Turn P s V s' V') (R : Multiset Token) : Turn P s (V + R) s' (V' + R) := by
  have hframe := Changes.frame h R
  rwa [add_assoc, add_assoc] at hframe

lemma single (h : Change P s s' U U') (hU : U = s.tokens + V) (hU' : U' = s'.tokens + V') : Turn P s V s' V' := by
  subst hU hU'
  exact Changes.single h

lemma view (hs : s'.view = s.view) : Turn P s V s' V := single (.other hs) rfl (by rw [tokens_of_view hs])

lemma lose (hW : ∀ docNo range, .future docNo range ∉ W) : Turn P s (V + W) s V := by
  induction W using Multiset.induction with
  | empty => rw [add_zero]; exact refl
  | cons t W ih =>
    have hforget : Change P s s (s.tokens + (V + W) + {t}) (s.tokens + (V + W)) :=
      .forget (fun docNo range h => absurd (h ▸ Multiset.mem_cons_self t W) (hW docNo range)) rfl
    refine (single hforget ?_ rfl).trans (ih fun docNo range h => hW docNo range (Multiset.mem_cons_of_mem h))
    rw [add_assoc, add_assoc, add_comm W, Multiset.singleton_add]

lemma lose_le (hle : V' ≤ V) (hV : ∀ docNo range, .future docNo range ∉ V) : Turn P s V s V' := by
  obtain ⟨W, rfl⟩ := Multiset.le_iff_exists_add.mp hle
  exact lose fun docNo range h => hV docNo range (Multiset.mem_add.mpr (.inr h))

end Turn

section Documents

variable {e : RecvDocMutable} {doc doc' : RecvDoc} {done : Done T}

lemma DocMem.tokens_write {m m' : DocMem} {off : ℕ} {seg : Bytes} (h : (m.write off seg : Outcome ε DocMem) = .ok m') (parentNo : ℕ) :
    m'.tokens parentNo = m.tokens parentNo := by
  cases m with
  | simple m =>
    rw [DocMem.write] at h
    obtain ⟨stop, -, h⟩ := bind_eq_ok.mp h
    split_ifs at h
    · rw [← ok_inj.mp h]
      rfl
    · cases h
  | replyBuf range m =>
    rw [DocMem.write] at h
    split_ifs at h
    · rw [← ok_inj.mp h]
      rfl
    · cases h

lemma RecvDoc.tokens_recvDoc {complete : Bool} {off : ℕ} {seg : Bytes} (h : doc.recvDoc off seg = .ok (complete, doc')) :
    doc'.tokens = doc.tokens := by
  rw [RecvDoc.recvDoc] at h
  dsimp only at h
  split_ifs at h
  · rw [(Prod.mk.inj (ok_inj.mp h)).2]
  · obtain ⟨segStop, -, h⟩ := bind_eq_ok.mp h
    obtain ⟨segEnd, -, h⟩ := bind_eq_ok.mp h
    split_ifs at h
    · cases h
    · obtain ⟨ms, -, h⟩ := bind_eq_ok.mp h
      obtain ⟨⟨n, setSegs⟩, -, h⟩ := bind_eq_ok.mp h
      obtain ⟨totalRecv, -, h⟩ := bind_eq_ok.mp h
      obtain ⟨mem, hmem, h⟩ := bind_eq_ok.mp h
      rw [← (Prod.mk.inj (ok_inj.mp h)).2]
      exact DocMem.tokens_write hmem _

lemma attempt_eq_ok {ε' α : Type} {x : Outcome ε' α} {r : Except ε' α} (h : (attempt x : Outcome ε _) = .ok r) :
    (∃ a, x = .ok a ∧ r = .ok a) ∨ ∃ e, r = .error e := by
  rcases x with (p | e) | a
  · cases h
  · exact .inr ⟨e, (ok_inj.mp h).symm⟩
  · exact .inl ⟨a, rfl, (ok_inj.mp h).symm⟩

lemma tokens_takeDoc (he : s.recvTable[i]? = some e) (e' : RecvDocMutable) (hheld : e'.held = e.held) (hdoc : e'.doc.tokens = 0) :
    (s.setRecv i e').tokens + e.doc.tokens = s.tokens := by
  have h := tokens_setRecv he e'
  rw [hheld, hdoc, add_zero, add_comm (copies e.held), ← add_assoc] at h
  exact add_right_cancel h

lemma tokens_putDoc (he : s.recvTable[i]? = some e) (e' : RecvDocMutable) (hheld : e'.held = e.held) (hdoc : e.doc.tokens = 0) :
    (s.setRecv i e').tokens = s.tokens + e'.doc.tokens := by
  have h := tokens_setRecv he e'
  rw [hheld, hdoc, add_zero, add_comm (copies e.held), ← add_assoc] at h
  exact add_right_cancel h

lemma tokens_takeChannel (he : s.recvTable[i]? = some e) (e' : RecvDocMutable) (horphans : e'.adoptableOrphans = e.adoptableOrphans)
    (hc : e'.channel = none) (hdoc : e'.doc.tokens = e.doc.tokens) :
    (s.setRecv i e').tokens + copies (channelHeld e.channel) = s.tokens := by
  have h := tokens_setRecv he e'
  rw [RecvDocMutable.held, RecvDocMutable.held, horphans, hc, hdoc, copies_add, copies_add] at h
  refine add_right_cancel (b := copies (readyHeld e.adoptableOrphans) + e.doc.tokens) ?_
  calc (s.setRecv i e').tokens + copies (channelHeld e.channel) + (copies (readyHeld e.adoptableOrphans) + e.doc.tokens)
      = (s.setRecv i e').tokens + (copies (readyHeld e.adoptableOrphans) + copies (channelHeld e.channel) + e.doc.tokens) := by abel
    _ = s.tokens + (copies (readyHeld e.adoptableOrphans) + copies (channelHeld none) + e.doc.tokens) := h
    _ = s.tokens + (copies (readyHeld e.adoptableOrphans) + e.doc.tokens) := by rw [channelHeld, copies_zero, add_zero]

lemma future_not_mem_memTokens {parentNo : ℕ} (m : DocMem) (no : ℕ) (range : BufRange) : .future no range ∉ m.tokens parentNo := by
  cases m <;> simp [DocMem.tokens]

lemma turn_finSection (hside : ¬ s.isSending docNo) (hi : s.recvIdx docNo = i) (he : s.recvTable[i]? = some e)
    (hno : e.docNo = docNo ∨ .waiting docNo ∈ V) (h : (s.finSection i docNo : Outcome ε _) = .ok done) :
    Turn P s V done.session (tasksTokens done.tasks + V) := by
  subst hi
  rw [finSection] at h
  obtain ⟨x, hx, h⟩ := bind_eq_ok.mp h
  obtain rfl := Option.some_inj.mp (he.symm.trans (entryAt_eq_ok hx))
  split at h
  · rename_i doc hdoc
    dsimp only at h
    have hmem : .waiting docNo ∈ V → .waiting docNo ∈ s.tokens + V := fun h => Multiset.mem_add.mpr (.inr h)
    split at h
    · rename_i parentNo hparent
      have hdocTokens : e.doc.tokens = doc.mem.tokens parentNo := by
        rw [hdoc, RecvDocState.tokens, RecvDoc.tokens, RecvDoc.lender, hparent]
        rfl
      have hfinish (s' : SessionInner T) (hs : s'.view =
            (s.setRecv (s.recvIdx docNo) { e with doc := .finishing, channel := e.channel.map OpenChannel.addRef }).view)
          (isClosed : Bool) : Turn P s V s' (tasksTokens [.handOver docNo parentNo isClosed doc] + V) := by
        refine Turn.single (.finish hside he hdoc (hno.imp_right hmem) hs) rfl ?_
        have hheld : RecvDocMutable.held { e with doc := .finishing, channel := e.channel.map OpenChannel.addRef } = e.held := by
          rw [RecvDocMutable.held, RecvDocMutable.held, channelHeld_addRef]
        rw [tokens_of_view hs, tasksTokens_singleton, Task.tokens, ← tokens_takeDoc he _ hheld rfl, hdocTokens]
        abel
      obtain ⟨⟨isClosed, s'⟩, hcomplete, h⟩ := bind_eq_ok.mp h
      rw [← ok_inj.mp h]
      refine hfinish s' ?_ isClosed
      rw [completeDoc] at hcomplete
      dsimp only at hcomplete
      split at hcomplete
      · rename_i c hc
        obtain ⟨n, hn, hcomplete⟩ := bind_eq_ok.mp hcomplete
        rw [← (Prod.mk.inj (ok_inj.mp hcomplete)).2, eq_of_add_eq_ok hn, hc]
        rfl
      · rename_i hc
        rw [← (Prod.mk.inj (ok_inj.mp hcomplete)).2, hc]
        rfl
    · rename_i hparent
      rw [← ok_inj.mp h]
      have hreject : Turn P s V (s.setRecv (s.recvIdx docNo) { e with doc := .finishing }) (V + e.doc.tokens) := by
        refine Turn.single (.reject he hdoc rfl) rfl ?_
        rw [← tokens_takeDoc he { e with doc := .finishing } rfl rfl]
        abel
      refine hreject.trans ?_
      rw [tasksTokens, List.map_nil, List.sum_nil, zero_add]
      exact Turn.lose (by rw [hdoc]; exact future_not_mem_memTokens _)
  · cases h

lemma turn_intoSection (hside : ¬ s.isSending f.docNo) (he : s.recvTable[s.recvIdx f.docNo]? = some e) (hdoc : e.doc = .active doc)
    (hno : e.docNo = f.docNo ∨ .waiting f.docNo ∈ V)
    (h : (s.intoSection (s.recvIdx f.docNo) e doc f : Outcome ε _) = .ok done) : Turn P s V done.session (tasksTokens done.tasks + V) := by
  have hwrite {doc' : RecvDoc} (htokens : doc'.tokens = doc.tokens) :
      Turn P s V (s.setRecv (s.recvIdx f.docNo) { e with doc := .active doc' }) V := by
    have hq : RecvQuiet e { e with doc := .active doc' } := ⟨rfl, .inr ⟨doc, doc', hdoc, rfl⟩, fun c hc => ⟨c, hc, id⟩, id⟩
    have hdocTokens : (RecvDocState.active doc').tokens = e.doc.tokens := by
      rw [hdoc]
      exact htokens
    exact Turn.single (.recv he hq .same rfl) rfl (by rw [tokens_setRecv_eq he { e with doc := .active doc' } rfl hdocTokens])
  rw [intoSection] at h
  obtain ⟨r, hr, h⟩ := bind_eq_ok.mp h
  obtain ⟨⟨complete, doc'⟩, hrecv, rfl⟩ | ⟨err, rfl⟩ := attempt_eq_ok hr
  · have htokens := RecvDoc.tokens_recvDoc hrecv
    cases complete with
    | false =>
      rw [← ok_inj.mp h, tasksTokens, List.map_nil, List.sum_nil, zero_add]
      exact hwrite htokens
    | true =>
      have he' := getElem?_set_of_getElem? he { e with doc := .active doc' }
      exact (hwrite htokens).trans (turn_finSection hside (recvIdx_of_eq (List.length_set ..) _) he' hno h)
  · rw [← ok_inj.mp h, tasksTokens, List.map_nil, List.sum_nil, zero_add, setRecv_self he]
    exact Turn.refl

lemma future_not_mem_copies (held : Multiset Undelivered) (no : ℕ) (range : BufRange) : .future no range ∉ copies held := fun h => by
  obtain ⟨u, -, hu⟩ := Multiset.mem_map.mp h
  cases hu

lemma turn_updateSection {c : Option OpenChannel} (hside : ¬ s.isSending f.docNo) (he : s.recvTable[s.recvIdx f.docNo]? = some e)
    (h : (s.updateSection (s.recvIdx f.docNo) e f c : Outcome ε _) = .ok done) :
    Turn P s (Task.tokens (.wait f c)) done.session (tasksTokens done.tasks) := by
  have hfuture (no : ℕ) (range : BufRange) : .future no range ∉ Task.tokens (.wait f c) := fun h => by
    obtain h | h := Multiset.mem_add.mp h
    · simp at h
    · exact future_not_mem_copies _ no range h
  have hle : tasksTokens (dropDocs c) ≤ Task.tokens (.wait f c) := (tasksTokens_dropDocs c).trans (Multiset.le_add_left _ _)
  rw [updateSection] at h
  split at h
  · rw [← ok_inj.mp h, setRecv_self he, tasksTokens_singleton]
    exact Turn.refl
  · rename_i doc hdoc
    obtain ⟨inner, hinto, h⟩ := bind_eq_ok.mp h
    rw [← ok_inj.mp h, tasksTokens_append]
    refine (turn_intoSection hside he hdoc (.inr (Multiset.mem_add.mpr (.inl (Multiset.mem_singleton_self _)))) hinto).trans ?_
    rw [add_comm, add_comm (tasksTokens inner.tasks)]
    exact (Turn.lose_le hle hfuture).frame _
  · rw [← ok_inj.mp h, setRecv_self he]
    exact Turn.lose_le hle hfuture

lemma Changes.numbered (h : Changes P s U s' U') (hinv : Numbered s U) : Numbered s' U' := by
  induction h with
  | refl => exact hinv
  | tail _ hc ih => exact hc.numbered ih

lemma RecvDoc.tokens_alloc {docLen : ℕ} {buffer : Option BufRange}
    (h : (RecvDoc.alloc docLen buffer : Outcome ε DocMem) = .ok doc.mem) : doc.tokens = bufferTokens doc.parentNo buffer := by
  rw [RecvDoc.tokens]
  cases buffer with
  | none =>
    rw [RecvDoc.alloc] at h
    split_ifs at h
    · rw [← ok_inj.mp h]
      rfl
    · cases h
  | some range =>
    rw [← ok_inj.mp h]
    rfl

lemma future_not_mem_bufferTokens (parentNo : Option ℕ) (buffer : Option BufRange) (no : ℕ) (range : BufRange) :
    .future no range ∉ bufferTokens parentNo buffer := by
  unfold bufferTokens
  split <;> simp

lemma turn_fillSection {docLen : ℕ} {buffer : Option BufRange} (hnum : Numbered s (s.tokens + Task.tokens (.fill f docLen buffer)))
    (h : (s.fillSection f docLen buffer : Outcome ε _) = .ok done) :
    Turn P s (Task.tokens (.fill f docLen buffer)) done.session (tasksTokens done.tasks) := by
  have hclaim : .claim f.docNo ∈ s.tokens + Task.tokens (.fill f docLen buffer) :=
    Multiset.mem_add.mpr (.inr (Multiset.mem_add.mpr (.inr (Multiset.mem_singleton_self _))))
  have hside := hnum.receiving _ hclaim f.docNo rfl
  rw [fillSection] at h
  obtain ⟨k, hk, h⟩ := bind_eq_ok.mp h
  obtain ⟨e, hentry, h⟩ := bind_eq_ok.mp h
  obtain ⟨rfl, he⟩ := exists_recv hk hentry
  obtain ⟨hno, hres⟩ := hnum.reserved_of_mem he hclaim rfl
  split_ifs at h
  · cases h
  obtain ⟨mem, hmem, h⟩ := bind_eq_ok.mp h
  dsimp only at h
  have hinstall {doc' : RecvDoc} (htokens : doc'.tokens = bufferTokens f.parentNo buffer) :
      Turn P s (Task.tokens (.fill f docLen buffer)) (s.setRecv (s.recvIdx f.docNo) { e with doc := .active doc' }) 0 := by
    have hnew := tokens_putDoc he { e with doc := .active doc' } rfl (by rw [hres]; rfl)
    refine Turn.single (U := s.tokens + bufferTokens f.parentNo buffer + _) (.install he hno hres rfl) (add_assoc _ _ _) ?_
    rw [hnew, RecvDocState.tokens, htokens, add_zero]
  rw [intoSection] at h
  obtain ⟨r, hr, h⟩ := bind_eq_ok.mp h
  obtain ⟨⟨complete, doc'⟩, hrecv, rfl⟩ | ⟨err, rfl⟩ := attempt_eq_ok hr
  · have htokens := (RecvDoc.tokens_recvDoc hrecv).trans (RecvDoc.tokens_alloc hmem)
    cases complete with
    | false =>
      rw [← ok_inj.mp h]
      exact hinstall htokens
    | true =>
      refine (hinstall htokens).trans ?_
      rw [← add_zero (tasksTokens done.tasks)]
      exact turn_finSection hside (recvIdx_of_eq (List.length_set ..) _) (getElem?_set_of_getElem? he _) (.inl hno) h
  · rw [← ok_inj.mp h, setRecv_self he]
    refine Turn.lose_le (Multiset.zero_le _) fun no range hf => ?_
    obtain hf | hf := Multiset.mem_add.mp hf
    · exact future_not_mem_bufferTokens _ _ no range hf
    · simp at hf

/-- What was in a slot that is claimed comes into hand, unless it goes over to the new document. -/
lemma tokens_claimSlot (docLen : ℕ) (he : s.recvTable[i]? = some e) (hfin : e.doc.slotIsFin) :
    (s.claimSlot i e f docLen).tokens +
      (copies (readyHeld (if f.isClosed then e.adoptableOrphans else [])) + copies (channelHeld e.channel)) = s.tokens := by
  have hdoc : e.doc.tokens = 0 := by
    cases h : e.doc <;> rw [h] at hfin <;> first | rfl | cases hfin
  have hset := tokens_setRecv (s := { s with recvBytesTotal := s.recvBytesTotal + docLen }) he { e with
    docNo := f.docNo
    needsSendControl := false
    doc := .activeReserved
    adoptableOrphans := []
    channel := if f.isClosed then none else some ⟨0, e.adoptableOrphans, .none⟩ }
  rw [hdoc, RecvDocMutable.held, copies_add] at hset
  change (s.claimSlot i e f docLen).tokens + _ = s.tokens + _ at hset
  cases hclosed : f.isClosed with
  | true =>
    rw [hclosed] at hset
    simpa [RecvDocMutable.held, channelHeld, readyHeld, copies, RecvDocState.tokens] using hset
  | false =>
    rw [hclosed] at hset
    refine add_right_cancel (b := copies (readyHeld e.adoptableOrphans)) ?_
    rw [add_assoc, add_comm _ (copies (readyHeld e.adoptableOrphans))]
    simpa [RecvDocMutable.held, channelHeld, OpenChannel.held, readyHeld, copies, RecvDocState.tokens, SpecialReplyState.held] using hset

lemma turn_claimSlot {docLen : ℕ} (hside : ¬ s.isSending f.docNo) (he : s.recvTable[s.recvIdx f.docNo]? = some e)
    (hlt : e.docNo < f.docNo) (hfin : e.doc.slotIsFin) : Turn P s 0 (s.claimSlot (s.recvIdx f.docNo) e f docLen) ({.claim f.docNo} +
      tasksTokens ((if f.isClosed then e.adoptableOrphans else []).map dropDoc ++ dropDocs e.channel)) := by
  have hclaim : Turn P s 0 (s.claimSlot (s.recvIdx f.docNo) e f docLen) ({.claim f.docNo} +
      (copies (readyHeld (if f.isClosed then e.adoptableOrphans else [])) + copies (channelHeld e.channel))) := by
    refine Turn.single (.claim hside he hlt hfin rfl rfl Bool.false_ne_true (fun c hc => ?_) rfl) rfl ?_
    · dsimp only at hc
      split_ifs at hc
      cases hc
      exact ⟨rfl, rfl⟩
    · rw [← tokens_claimSlot docLen he hfin]
      abel
  refine hclaim.trans (Turn.lose_le ?_ fun no range hf => ?_)
  · rw [tasksTokens_append, tasksTokens_map_dropDoc]
    exact add_le_add_right (add_le_add_right (tasksTokens_dropDocs _) _) _
  · rw [← copies_add] at hf
    obtain hf | hf := Multiset.mem_add.mp hf
    · simp at hf
    · exact future_not_mem_copies _ no range hf

lemma turn_createSection (hnum : Numbered s s.tokens) (hside : ¬ s.isSending f.docNo)
    (he : s.recvTable[s.recvIdx f.docNo]? = some e) (hlt : e.docNo < f.docNo)
    (h : (s.createSection (s.recvIdx f.docNo) e f : Outcome ε _) = .ok done) : Turn P s 0 done.session (tasksTokens done.tasks) := by
  rw [createSection] at h
  split at h
  · rw [← ok_inj.mp h]
    exact Turn.refl
  rename_i docLen hlen
  split at h
  · rw [← ok_inj.mp h]
    exact Turn.refl
  rename_i hmay
  have hfin : e.doc.slotIsFin := by
    rw [Bool.not_eq_true, Bool.not_eq_false', mayClaim, Bool.and_eq_true, Bool.and_eq_true] at hmay
    exact hmay.1.1
  have hclaim : Turn P s 0 (s.claimSlot (s.recvIdx f.docNo) e f docLen) _ := turn_claimSlot hside he hlt hfin
  dsimp only at h
  generalize (if f.isClosed then e.adoptableOrphans else []).map dropDoc ++ dropDocs e.channel = dropped at h hclaim
  split at h
  · rw [← ok_inj.mp h]
    exact hclaim
  · obtain ⟨inner, hfill, h⟩ := bind_eq_ok.mp h
    rw [← ok_inj.mp h, tasksTokens_append]
    have hnum' := Changes.numbered hclaim (by rwa [add_zero])
    have hV : Task.tokens (.fill f docLen none) = {.claim f.docNo} := by rw [Task.tokens, bufferTokens_none, zero_add]
    refine hclaim.trans (Turn.frame ?_ _)
    rw [← hV] at hnum' ⊢
    exact turn_fillSection (hnum'.mono (add_le_add_right (Multiset.le_add_right _ _) _)) hfill

lemma updateSection_setRecv (x e : RecvDocMutable) (c : Option OpenChannel) :
    ((s.setRecv i x).updateSection i e f c : Outcome ε _) = s.updateSection i e f c := by
  simp only [updateSection, intoSection, setRecv_setRecv]

lemma turn_close (f : SegFrame) (he : s.recvTable[i]? = some e) :
    Turn P s 0 (s.setRecv i (if f.isClosed then { e with channel := none } else e))
      (copies (channelHeld (if f.isClosed then e.channel else none))) := by
  cases f.isClosed with
  | true =>
    have hq : RecvQuiet e { e with channel := none } := ⟨rfl, .inl rfl, fun c hc => (by cases hc), id⟩
    refine Turn.single (.recv he hq .closed rfl) rfl ?_
    rw [add_zero]
    exact (tokens_takeChannel he { e with channel := none } rfl rfl rfl).symm
  | false =>
    rw [if_neg Bool.false_ne_true, if_neg Bool.false_ne_true, setRecv_self he]
    exact Turn.refl

lemma turn_segSection (hnum : Numbered s s.tokens) (h : (s.segSection f : Outcome ε _) = .ok done) :
    Turn P s 0 done.session (tasksTokens done.tasks) := by
  rw [segSection] at h
  split at h
  · rw [← ok_inj.mp h]
    exact Turn.refl
  rename_i hside
  obtain ⟨k, hk, h⟩ := bind_eq_ok.mp h
  obtain ⟨e, hentry, h⟩ := bind_eq_ok.mp h
  obtain ⟨rfl, he⟩ := exists_recv hk hentry
  split at h
  · rename_i hno
    have hclose : Turn P s 0 _ _ := turn_close f he
    rw [← updateSection_setRecv (if f.isClosed then { e with channel := none } else e)] at h
    have hno' : (if f.isClosed then { e with channel := none } else e).docNo = f.docNo := by
      split <;> exact hno
    generalize (if f.isClosed then { e with channel := none } else e) = e' at h hclose hno'
    generalize (if f.isClosed then e.channel else none) = c at h hclose
    have hidx : (s.setRecv (s.recvIdx f.docNo) e').recvIdx f.docNo = s.recvIdx f.docNo := recvIdx_of_eq (List.length_set ..) _
    have he' : (s.setRecv (s.recvIdx f.docNo) e').recvTable[(s.setRecv (s.recvIdx f.docNo) e').recvIdx f.docNo]? = some e' := by
      rw [hidx]
      exact getElem?_set_of_getElem? he e'
    have hwait : Turn P (s.setRecv (s.recvIdx f.docNo) e') (copies (channelHeld c)) (s.setRecv (s.recvIdx f.docNo) e')
        (Task.tokens (.wait f c)) := by
      refine Turn.single (.wait hside he' hno' rfl) rfl ?_
      rw [Task.tokens]
      abel
    refine (hclose.trans hwait).trans (turn_updateSection (ε := ε) hside he' ?_)
    rwa [hidx]
  split at h
  · rename_i hlt
    exact turn_createSection hnum hside he hlt h
  · rw [← ok_inj.mp h]
    exact Turn.refl

lemma turn_waitSection {c : Option OpenChannel} (hside : ¬ s.isSending f.docNo) (h : (s.waitSection f c : Outcome ε _) = .ok done) :
    Turn P s (Task.tokens (.wait f c)) done.session (tasksTokens done.tasks) := by
  rw [waitSection] at h
  obtain ⟨k, hk, h⟩ := bind_eq_ok.mp h
  obtain ⟨e, hentry, h⟩ := bind_eq_ok.mp h
  obtain ⟨rfl, he⟩ := exists_recv hk hentry
  exact turn_updateSection hside he h

lemma Reckons.imp {own own' : Prop} {a a' : Option ℕ} (h : Reckons P own docNo a a' U U') (himp : own → own') :
    Reckons P own' docNo a a' U U' := by
  cases h with
  | same => exact .same
  | closed => exact .closed
  | add hown hh => exact .add (himp hown) hh
  | drop hown ha ht => exact .drop (himp hown) ha ht

lemma Change.update {c : OpenChannel} (hc : s.channelOf docNo = some c) (c' : OpenChannel)
    (hr : c'.replyBuffer = c.replyBuffer ∨ (c'.replyBuffer = .none ∧ ∀ b, c.replyBuffer ≠ .awaiting b))
    (hU : Reckons P True docNo (some c.refCount) (some c'.refCount) U U') (hs : s'.view = (s.setChannel docNo (some c')).view) :
    Change P s s' U U' := by
  obtain ⟨e, he, rfl, hch, hside, hset⟩ | ⟨e, he, rfl, hch, hside, hset⟩ := channelOf_cases hc
  · have hq : SendQuiet e { e with channel := some c' } := by
      refine ⟨rfl, rfl, by rw [hch]; rfl, fun x x' hx hx' => ?_, id⟩
      cases hch.symm.trans hx
      cases hx'
      exact hr
    refine .send he hq ?_ (hs.trans (congrArg SessionInner.view (hset (some c'))))
    rw [hch]
    exact hU.imp fun _ => ⟨hside, rfl⟩
  · have hq : RecvQuiet e { e with channel := some c' } := by
      refine ⟨rfl, .inl rfl, fun x' hx' => ⟨c, hch, fun hnone => ?_⟩, id⟩
      cases hx'
      exact hr.elim (fun hr => hr.trans hnone) And.left
    refine .recv he hq ?_ (hs.trans (congrArg SessionInner.view (hset (some c'))))
    rw [hch]
    exact hU.imp fun _ => ⟨hside, rfl⟩

lemma turn_lend {docLen parentNo : ℕ} {c : OpenChannel} {range : BufRange} (hlink : Linked s s.tokens) (hP : P.lend)
    (hparent : f.parentNo = some parentNo) (hc : s.channelOf parentNo = some c) (hr : c.replyBuffer = .awaiting (some range)) :
    Turn P s (Task.tokens (.lookUp f docLen)) (s.setChannel parentNo (some { c with replyBuffer := .awaiting none }))
      (Task.tokens (.fill f docLen (some range))) := by
  have hset := tokens_setChannel hc (some { c with replyBuffer := .awaiting none })
  have hheld : channelHeld (some { c with replyBuffer := .awaiting none }) = c.held := by
    rw [channelHeld, OpenChannel.held, OpenChannel.held, hr]
    rfl
  rw [hheld] at hset
  obtain ⟨e, he, hno, hch, hside, hwrite⟩ | ⟨e, he, -, hch, -, -⟩ := channelOf_cases hc
  · refine Turn.single (.lend hP hside he hno hch hr (congrArg SessionInner.view (hwrite _))) rfl ?_
    rw [add_right_cancel hset, Task.tokens, Task.tokens, hparent, bufferTokens]
    abel
  · have hplain := hlink.plain _ e he c hch
    rw [hr] at hplain
    cases hplain

lemma turn_lookUp {docLen : ℕ} {buffer : Option BufRange} (hlink : Linked s s.tokens) (hP : P.lend)
    (h : (s.lendBuffer f : Outcome ε _) = .ok (buffer, s')) :
    Turn P s (Task.tokens (.lookUp f docLen)) s' (Task.tokens (.fill f docLen buffer)) := by
  have hnone : Task.tokens (.fill f docLen none) = Task.tokens (.lookUp f docLen) := by
    rw [Task.tokens, Task.tokens, bufferTokens_none, zero_add]
  rw [lendBuffer] at h
  split at h
  · rename_i parentNo _ hparent
    obtain ⟨⟨r, s''⟩, hupdate, h⟩ := bind_eq_ok.mp h
    obtain ⟨rfl, rfl⟩ := Prod.mk.inj (ok_inj.mp h)
    obtain ⟨c, b, c', hc, hg, rfl, rfl⟩ | ⟨-, rfl, rfl⟩ := updateChannel_eq_ok hupdate
    · obtain ⟨rfl, rfl⟩ := Prod.mk.inj (ok_inj.mp hg)
      rw [Option.join_some]
      by_cases hlends : ∃ range, c.replyBuffer = .awaiting (some range)
      · obtain ⟨range, hr⟩ := hlends
        rw [hr]
        exact turn_lend hlink hP hparent hc hr
      · -- nothing to give away
        have hself : c.replyBuffer.tryIncoming = (none, c.replyBuffer) := by
          cases hr : c.replyBuffer with
          | awaiting b =>
            cases b with
            | some range => exact absurd ⟨range, hr⟩ hlends
            | none => rfl
          | recv len u => rfl
          | none => rfl
        change Turn P s _ (s.setChannel parentNo (some { c with replyBuffer := c.replyBuffer.tryIncoming.2 }))
          (Task.tokens (.fill f docLen c.replyBuffer.tryIncoming.1))
        rw [hself, setChannel_self hc, hnone]
        exact Turn.refl
    · rw [Option.join_none, hnone]
      exact Turn.refl
  · obtain ⟨rfl, rfl⟩ := Prod.mk.inj (ok_inj.mp h)
    rw [hnone]
    exact Turn.refl

section HandOver

variable {parentNo : ℕ} {isClosed : Bool}

lemma future_not_mem_handOver (no : ℕ) (range : BufRange) : .future no range ∉ Task.tokens (.handOver docNo parentNo isClosed doc) :=
  fun h => by
  obtain h | h := Multiset.mem_add.mp h
  · simp at h
  · exact future_not_mem_memTokens _ no range h

lemma turn_post {c c' : OpenChannel} (hlink : Linked s (s.tokens + Task.tokens (.handOver docNo parentNo isClosed doc)))
    (hc : s.channelOf parentNo = some c) (h : (c.post docNo parentNo isClosed doc : Outcome ε _) = .ok c') :
    Turn P s (Task.tokens (.handOver docNo parentNo isClosed doc)) (s.setChannel parentNo (some c')) 0 := by
  have hset := tokens_setChannel hc (some c')
  have htokens (hheld : copies c'.held = copies c.held + {.copy docNo}) :
      (s.setChannel parentNo (some c')).tokens = s.tokens + {.copy docNo} := by
    refine add_right_cancel (b := copies c.held) ?_
    rw [hset, channelHeld, hheld]
    abel
  rw [OpenChannel.post] at h
  split at h
  · rename_i buf hmem
    have hr : c'.replyBuffer = c.replyBuffer := by rw [← ok_inj.mp h]
    have hcount : c'.refCount = c.refCount := by rw [← ok_inj.mp h]
    have hheld : copies c'.held = copies c.held + {.copy docNo} := by
      rw [← ok_inj.mp h, OpenChannel.held, OpenChannel.held, readyHeld_append, copies_add, copies_add, copies_add, copies_singleton,
        add_right_comm]
      rfl
    refine Turn.single (.update hc c' (.inl hr) (by rw [hcount]; exact .same) rfl) rfl ?_
    rw [htokens hheld, Task.tokens, hmem, DocMem.tokens, add_zero, add_zero]
  · rename_i range m hmem
    split at h
    · rename_i b hr
      have hV : Task.tokens (.handOver docNo parentNo isClosed doc) = {.copy docNo} + {.buffer parentNo range} := by
        rw [Task.tokens, hmem, DocMem.tokens]
      have hheld : copies c'.held = copies c.held + {.copy docNo} := by
        rw [← ok_inj.mp h, OpenChannel.held, OpenChannel.held, hr, copies_add, copies_add]
        change copies (readyHeld c.readyDocs) + {.copy docNo} = copies (readyHeld c.readyDocs) + 0 + {.copy docNo}
        rw [add_zero]
      obtain ⟨hside, x, hx, hxno, -, -⟩ := hlink.linked parentNo range (by rw [hV]; simp)
      obtain ⟨e, he, hno, hch, -, hwrite⟩ | ⟨-, -, -, -, hside', -⟩ := channelOf_cases hc
      · refine Turn.single (U := s.tokens + {.copy docNo} + {.buffer parentNo range})
          (.reply he hno hch (congrArg SessionInner.view ((congrArg _ (congrArg _ (ok_inj.mp h).symm)).trans (hwrite _)))) ?_ ?_
        · rw [hV, add_assoc]
        · rw [htokens hheld, add_zero]
      · exact absurd hside hside'
    · cases h

lemma turn_adoptLater {r : Except RecvError Unit} (h : (s.adoptLater docNo parentNo isClosed doc : Outcome ε _) = .ok (r, s')) :
    Turn P s (Task.tokens (.handOver docNo parentNo isClosed doc)) s' 0 := by
  rw [adoptLater] at h
  obtain ⟨k, hk, h⟩ := bind_eq_ok.mp h
  obtain ⟨e, hentry, h⟩ := bind_eq_ok.mp h
  obtain ⟨rfl, he⟩ := exists_recv hk hentry
  split at h
  · split at h
    · rename_i buf hmem
      rw [← (Prod.mk.inj (ok_inj.mp h)).2]
      generalize hd : (⟨buf, docNo, doc.hasSpecialParent, isClosed, doc.docLen, parentNo⟩ : UnfinishedRecvDoc) = d
      have hq : RecvQuiet e { e with orphansExpectedParentNo := some parentNo, adoptableOrphans := e.adoptableOrphans ++ [d] } :=
        ⟨rfl, .inl rfl, fun c hc => ⟨c, hc, id⟩, id⟩
      refine Turn.single (.recv he hq .same rfl) rfl ?_
      have hset := tokens_setRecv he { e with orphansExpectedParentNo := some parentNo, adoptableOrphans := e.adoptableOrphans ++ [d] }
      refine add_right_cancel (b := copies e.held + e.doc.tokens) ?_
      rw [add_zero, hset, Task.tokens, hmem, DocMem.tokens, RecvDocMutable.held, RecvDocMutable.held, readyHeld_append, copies_add,
        copies_add, copies_add, copies_singleton, ← hd, Undelivered.docNo]
      abel
    · cases h
  · rw [← (Prod.mk.inj (ok_inj.mp h)).2]
    exact Turn.lose_le (Multiset.zero_le _) future_not_mem_handOver

lemma turn_handOverSection (hlink : Linked s (s.tokens + Task.tokens (.handOver docNo parentNo isClosed doc)))
    (h : (s.handOverSection docNo parentNo isClosed doc : Outcome ε _) = .ok done) :
    Turn P s (Task.tokens (.handOver docNo parentNo isClosed doc)) done.session (tasksTokens done.tasks) := by
  have hnotOpen {no : ℕ} (h : (handOverSection.notOpen docNo parentNo isClosed doc s no : Outcome ε _) = .ok done) :
      Turn P s (Task.tokens (.handOver docNo parentNo isClosed doc)) done.session (tasksTokens done.tasks) := by
    rw [handOverSection.notOpen] at h
    split_ifs at h
    · rw [← ok_inj.mp h, tasksTokens_singleton]
      exact Turn.lose_le (Multiset.le_add_right _ _) future_not_mem_handOver
    · rw [← ok_inj.mp h]
      exact Turn.lose_le (Multiset.zero_le _) future_not_mem_handOver
    · obtain ⟨⟨r, s'⟩, hadopt, h⟩ := bind_eq_ok.mp h
      cases r <;> rw [← ok_inj.mp h] <;> exact turn_adoptLater hadopt
  rw [handOverSection] at h
  obtain ⟨⟨no, c⟩, hslot, h⟩ := bind_eq_ok.mp h
  cases c with
  | none => exact hnotOpen h
  | some c =>
    dsimp only at h
    split_ifs at h with hno
    · obtain ⟨c', hpost, h⟩ := bind_eq_ok.mp h
      have hc := channelOf_of_channelSlot hslot
      rw [if_pos hno] at hc
      rw [← ok_inj.mp h]
      exact turn_post hlink hc hpost
    · exact hnotOpen h

end HandOver

lemma view_schedule {variant : UInt8} (hv : variant ≠ variantControlClose) (docNo : ℕ) :
    (s.scheduleSendControl variant docNo).view = s.view := by
  have hcloses : (s.scheduleSendControl variant docNo).closes = s.closes := by
    rw [closes, scheduleSendControl, List.filterMap_append]
    simp [hv, closes]
  rw [SessionInner.view, SessionInner.view, hcloses]
  rfl

lemma turn_dropRound {docLen : ℕ} {pushed : List (ℕ × ℕ)} (hnum : Numbered s (s.tokens + {.copy docNo}))
    (h : (s.dropRound docNo docLen : Outcome ε _) = .ok (pushed, s')) :
    Turn P s {.copy docNo} s' (tasksTokens (pushed.map fun p => .dropRound p.1 p.2)) := by
  rw [dropRound] at h
  dsimp only at h
  generalize hs₁ : scheduleSendControl _ variantControlFinParentClosed docNo = s₁ at h
  have hview : s₁.view = s.view := by
    rw [← hs₁, view_schedule (by decide)]
    rfl
  have hreleased : Turn P s {.copy docNo} s₁ {.copy docNo} := Turn.view hview
  have hnum₁ : Numbered s₁ (s₁.tokens + {.copy docNo}) := Changes.numbered hreleased hnum
  refine hreleased.trans ?_
  obtain ⟨k, hk, h⟩ := bind_eq_ok.mp h
  obtain ⟨e, hentry, h⟩ := bind_eq_ok.mp h
  obtain ⟨rfl, he⟩ := exists_recv hk hentry
  split_ifs at h with hno hassert
  · cases h
  · have hfin := hnum₁.slotIsFin_of_mem he hno (by simp)
    have hdoc : e.doc.tokens = 0 := by
      cases hd : e.doc <;> rw [hd] at hfin <;> first | rfl | cases hfin
    have htake := tokens_takeChannel he { e with doc := .finParentClose, channel := none, needsSendControl := true } rfl rfl hdoc.symm
    have hretire : Turn P s₁ {.copy docNo}
        (s₁.setRecv (s₁.recvIdx docNo) { e with doc := .finParentClose, channel := none, needsSendControl := true })
        (copies (channelHeld e.channel)) :=
      Turn.single (.retire he hno rfl) rfl htake.symm
    refine hretire.trans ?_
    split at h
    · rename_i c hc
      obtain ⟨rfl, rfl⟩ := Prod.mk.inj (ok_inj.mp h)
      have hpushed : tasksTokens ((c.readyDocs.map fun d => (d.docNo, d.buf.length)).map fun p => .dropRound p.1 p.2) =
          copies (readyHeld c.readyDocs) := by
        rw [List.map_map, ← tasksTokens_map_dropDoc]
        rfl
      rw [hpushed, hc]
      refine Turn.trans (Turn.lose_le ?_ (future_not_mem_copies _)) (Turn.view rfl)
      rw [channelHeld, OpenChannel.held, copies_add]
      exact Multiset.le_add_right _ _
    · rename_i hc
      obtain ⟨rfl, rfl⟩ := Prod.mk.inj (ok_inj.mp h)
      rw [hc]
      exact Turn.refl
  · obtain ⟨rfl, rfl⟩ := Prod.mk.inj (ok_inj.mp h)
    exact Turn.lose_le (Multiset.zero_le _) (by simp)

end Documents

/-- What a thread does when it goes on is made of changes, and it does not lose a future. -/
lemma Task.turn {task : Task} {done : Done T} (hP : P.lend) (hnum : Numbered s (s.tokens + task.tokens))
    (hlink : Linked s (s.tokens + task.tokens)) (h : (task.run s : Outcome ε _) = .ok done) :
    Turn P s task.tokens done.session (tasksTokens done.tasks) := by
  cases task with
  | seg f => exact turn_segSection (hnum.left) h
  | wait f c => exact turn_waitSection (hnum.receiving (.waiting f.docNo) (by simp [Task.tokens]) f.docNo rfl) h
  | lookUp f docLen =>
    obtain ⟨⟨buffer, s'⟩, hlend, h⟩ := bind_eq_ok.mp h
    rw [← ok_inj.mp h, tasksTokens_singleton]
    exact turn_lookUp hlink.left hP hlend
  | fill f docLen buffer => exact turn_fillSection hnum h
  | handOver docNo parentNo isClosed doc => exact turn_handOverSection hlink h
  | dropRound docNo docLen =>
    obtain ⟨⟨pushed, s'⟩, hdrop, h⟩ := bind_eq_ok.mp h
    rw [← ok_inj.mp h]
    exact turn_dropRound hnum hdrop
  | abandon =>
    rw [← ok_inj.mp h]
    exact Turn.view rfl

end Pqsnet.Session
