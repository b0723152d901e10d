import Pqsnet.Session.Books

/-! Every small step is a step on the books, and keeps the invariant of a session. -/

namespace Pqsnet.Session

open Checked Outcome

namespace SessionInner

variable {T : Type} {s s' : SessionInner T} {P : Permits} {h h' : Hand} {i docNo : ℕ}

/-- The announced length of a document that is being received. -/
def activeLen (e : RecvDocMutable) : ℕ :=
  match e.doc with
  | .active doc => doc.docLen
  | _ => 0

def receiving (s : SessionInner T) : ℕ := (s.recvTable.map activeLen).sum

/-- The announced length of a document whose slot is reserved. -/
def Hand.claimedLen (h : Hand) : ℕ := (h.claimed.map Prod.snd).getD 0

def books (s : SessionInner T) (h : Hand) : Books :=
  ⟨s.held + h.docs, s.receiving + h.claimedLen, s.recvBytesTotal, s.recvBytesMax, s.ledger⟩

section Change

variable {e e' : RecvDocMutable}

lemma held_setRecv (he : s.recvTable[i]? = some e) (e' : RecvDocMutable) :
    (s.setRecv i e').held + e.held = s.held + e'.held := by
  simp only [held, setRecv]
  rw [add_right_comm, sum_map_set _ he, add_right_comm]

lemma held_setSend {e : SendDocMutable} (he : s.sendTable[i]? = some e) (e' : SendDocMutable) :
    (s.setSend i e').held + e.held = s.held + e'.held := by
  simp only [held, setSend]
  rw [add_assoc, sum_map_set _ he, add_assoc]

lemma held_setChannel {channel : OpenChannel} (hc : s.channelOf docNo = some channel) (c : Option OpenChannel) :
    (s.setChannel docNo c).held + channel.held = s.held + channelHeld c := by
  rcases channelOf_cases hc with ⟨e, he, -, hch, -, hset⟩ | ⟨e, he, -, hch, -, hset⟩
  · have hheld := held_setSend he { e with channel := c }
    simp only [SendDocMutable.held, hch] at hheld
    rw [hset]
    exact hheld
  · have hheld := held_setRecv he { e with channel := c }
    simp only [RecvDocMutable.held, hch, channelHeld] at hheld
    rw [hset]
    apply add_right_cancel (b := readyHeld e.adoptableOrphans)
    rw [add_assoc, add_comm channel.held, hheld, add_assoc, add_comm (channelHeld c)]
    rfl

lemma receiving_setRecv (he : s.recvTable[i]? = some e) (e' : RecvDocMutable) :
    (s.setRecv i e').receiving + activeLen e = s.receiving + activeLen e' :=
  sum_map_set activeLen he e'

lemma receiving_setChannel {channel : OpenChannel} (hc : s.channelOf docNo = some channel) (c : Option OpenChannel) :
    (s.setChannel docNo c).receiving = s.receiving := by
  rcases channelOf_cases hc with ⟨e, he, -, -, -, hset⟩ | ⟨e, he, -, -, -, hset⟩
  · rw [hset]
    rfl
  · rw [hset]
    exact add_right_cancel (receiving_setRecv he { e with channel := c })

lemma readyHeld_append (docs : List UnfinishedRecvDoc) (d : UnfinishedRecvDoc) :
    readyHeld (docs ++ [d]) = readyHeld docs + {.ready d} := by
  simp only [readyHeld, List.map_append, List.map_singleton, ← Multiset.coe_add, Multiset.coe_singleton]

lemma channelHeld_addRef (c : Option OpenChannel) : channelHeld (c.map OpenChannel.addRef) = channelHeld c := by
  cases c <;> rfl

lemma setChannel_ledger (c : Option OpenChannel) : (s.setChannel docNo c).ledger = s.ledger := by
  unfold setChannel
  split <;> rfl

lemma setChannel_total (c : Option OpenChannel) : (s.setChannel docNo c).recvBytesTotal = s.recvBytesTotal := by
  unfold setChannel
  split <;> rfl

lemma setChannel_max (c : Option OpenChannel) : (s.setChannel docNo c).recvBytesMax = s.recvBytesMax := by
  unfold setChannel
  split <;> rfl

end Change

section Books

variable {b : Books}

lemma books_refl (hheld : s'.held + h'.docs = s.held + h.docs)
    (hrecv : s'.receiving + h'.claimedLen = s.receiving + h.claimedLen) (ht : s'.recvBytesTotal = s.recvBytesTotal)
    (hm : s'.recvBytesMax = s.recvBytesMax) (hl : s'.ledger = s.ledger) : Books.Step P (s.books h) (s'.books h') := by
  rw [books, books, hheld, hrecv, ht, hm, hl]
  exact .refl

lemma books_setRecv {e e' : RecvDocMutable} (he : s.recvTable[i]? = some e)
    (hheld : e'.held + h'.docs = e.held + h.docs) (hrecv : activeLen e' + h'.claimedLen = activeLen e + h.claimedLen) :
    Books.Step P (s.books h) ((s.setRecv i e').books h') := by
  refine books_refl ?_ ?_ rfl rfl rfl
  · apply add_right_cancel (b := e.held)
    rw [add_right_comm, held_setRecv he, add_assoc, hheld, add_assoc, add_comm h.docs]
  · have := receiving_setRecv he e'
    omega

lemma books_setChannel {channel : OpenChannel} {c : Option OpenChannel} (hc : s.channelOf docNo = some channel)
    (hheld : channelHeld c + h'.docs = channel.held + h.docs) (hh : h'.claimed = h.claimed) :
    Books.Step P (s.books h) ((s.setChannel docNo c).books h') := by
  refine books_refl ?_ ?_ (setChannel_total c) (setChannel_max c) (setChannel_ledger c)
  · apply add_right_cancel (b := channel.held)
    rw [add_right_comm, held_setChannel hc, add_assoc, hheld, add_assoc, add_comm h.docs]
  · rw [receiving_setChannel hc, Hand.claimedLen, Hand.claimedLen, hh]

end Books

lemma completed_docNo (doc : RecvDoc) (no parentNo : ℕ) (b : Bool) : (doc.completed no parentNo b).docNo = no := by
  unfold RecvDoc.completed
  split <;> rfl

lemma completed_docLen (doc : RecvDoc) (no parentNo : ℕ) (b : Bool) : (doc.completed no parentNo b).docLen = doc.docLen := by
  unfold RecvDoc.completed
  split <;> rfl

lemma completed_plain {doc : RecvDoc} (hdoc : doc.Sane) {m : List (Option UInt8)} (hm : doc.mem = .simple m)
    (no parentNo : ℕ) (b : Bool) : Books.Plain (doc.completed no parentNo b) := by
  rw [RecvDoc.completed, hm]
  exact hdoc.simple m hm

lemma activeLen_of_not_isActive {e : RecvDocMutable} (he : ¬ e.doc.isActive) : activeLen e = 0 := by
  unfold activeLen
  split
  · rename_i doc hdoc
    rw [hdoc] at he
    exact absurd rfl he
  · rfl

lemma books_claim {e : RecvDocMutable} {f : SegFrame} {docLen : ℕ} (hh : h.claimed = none)
    (he : s.recvTable[s.recvIdx f.docNo]? = some e) (hmay : s.mayClaim e f.docNo docLen) :
    Books.Step P (s.books h) ((s.claimSlot (s.recvIdx f.docNo) e f docLen).books
      ⟨h.docs + (readyHeld (if f.isClosed then e.adoptableOrphans else []) + channelHeld e.channel),
        some (s.recvIdx f.docNo, docLen)⟩) := by
  simp only [mayClaim, Bool.and_eq_true, decide_eq_true_eq] at hmay
  obtain ⟨⟨hfin, -⟩, hlt, hmax⟩ := hmay
  have hheld := held_setRecv he { e with
    docNo := f.docNo, needsSendControl := false, doc := .activeReserved, adoptableOrphans := []
    channel := if f.isClosed then none else some ⟨0, e.adoptableOrphans, .none⟩ }
  have hrecv := receiving_setRecv he { e with
    docNo := f.docNo, needsSendControl := false, doc := .activeReserved, adoptableOrphans := []
    channel := if f.isClosed then none else some ⟨0, e.adoptableOrphans, .none⟩ }
  rw [activeLen_of_not_isActive (not_isActive_of_slotIsFin hfin)] at hrecv
  have hbooks : (s.claimSlot (s.recvIdx f.docNo) e f docLen).books
      ⟨h.docs + (readyHeld (if f.isClosed then e.adoptableOrphans else []) + channelHeld e.channel),
        some (s.recvIdx f.docNo, docLen)⟩ =
      { s.books h with receiving := s.receiving + h.claimedLen + docLen, total := s.recvBytesTotal + docLen } := by
    rw [books, books, Books.mk.injEq]
    refine ⟨?_, ?_, rfl, rfl, rfl⟩
    · apply add_right_cancel (b := e.held)
      rw [add_right_comm]
      refine (congrArg (· + _) hheld).trans ?_
      simp only [RecvDocMutable.held]
      cases f.isClosed
      · simp only [Bool.false_eq_true, if_false, readyHeld, List.map_nil, Multiset.coe_nil, zero_add, channelHeld,
          OpenChannel.held, SpecialReplyState.held, add_zero]
        abel
      · simp only [if_true, readyHeld, List.map_nil, Multiset.coe_nil, channelHeld, add_zero]
        abel
    · rw [Hand.claimedLen, Hand.claimedLen, hh]
      exact congrArg (· + docLen) hrecv
  rw [hbooks]
  exact .claim docLen hlt hmax

lemma books_finish {e : RecvDocMutable} {doc : RecvDoc} (he : s.recvTable[i]? = some e) (hdoc : e.doc = .active doc)
    (hsane : doc.Sane) (hP : P.lend ∨ ∃ m, doc.mem = .simple m) (hnew : e.docNo ∉ s.ledger.completed) (parentNo : ℕ) :
    Books.Step P (s.books h)
      (({ s with ledger := { s.ledger with completed := s.ledger.completed ++ [e.docNo] } }.setRecv i
        { e with doc := .finishing, channel := e.channel.map OpenChannel.addRef }).books
          (h.take {doc.completed e.docNo parentNo e.channel.isNone})) := by
  have hheld := held_setRecv he { e with doc := .finishing, channel := e.channel.map OpenChannel.addRef }
  have hrecv := receiving_setRecv he { e with doc := .finishing, channel := e.channel.map OpenChannel.addRef }
  simp only [RecvDocMutable.held, channelHeld_addRef, add_left_inj] at hheld
  simp only [activeLen, hdoc, add_zero] at hrecv
  have hbooks : ({ s with ledger := { s.ledger with completed := s.ledger.completed ++ [e.docNo] } }.setRecv i
        { e with doc := .finishing, channel := e.channel.map OpenChannel.addRef }).books
          (h.take {doc.completed e.docNo parentNo e.channel.isNone}) =
      { s.books h with
        receiving := (s.setRecv i { e with doc := .finishing, channel := e.channel.map OpenChannel.addRef }).receiving +
          h.claimedLen
        held := (s.books h).held + {doc.completed e.docNo parentNo e.channel.isNone}
        ledger := { s.ledger with
          completed := s.ledger.completed ++ [(doc.completed e.docNo parentNo e.channel.isNone).docNo] } } := by
    rw [books, books, Books.mk.injEq, completed_docNo]
    refine ⟨?_, rfl, rfl, rfl, rfl⟩
    rw [add_assoc]
    exact congrArg (· + _) hheld
  rw [hbooks]
  refine .complete _ ?_ (hP.imp id fun ⟨m, hm⟩ => completed_plain hsane hm _ _ _) (by rwa [completed_docNo])
  rw [completed_docLen, books, ← hrecv]
  ring

lemma held_take {channel c : OpenChannel} {u : Undelivered} (hc : s.channelOf docNo = some channel)
    (hheld : channel.held = c.held + {u}) (h : Hand) :
    (s.books h).held = (s.setChannel docNo (some c)).held + h.docs + {u} := by
  apply add_right_cancel (b := c.held)
  have hset := held_setChannel hc (some c)
  rw [hheld, channelHeld] at hset
  calc s.held + h.docs + c.held = s.held + c.held + h.docs := add_right_comm _ _ _
    _ = (s.setChannel docNo (some c)).held + (c.held + {u}) + h.docs := by rw [← hset]
    _ = _ := by abel

lemma Move.books (hm : Move P s h s' h') (hinv : SlotInv s h)
    (hnew : ∀ (j : ℕ) (e : RecvDocMutable), s.recvTable[j]? = some e → e.doc.isActive → e.docNo ∉ s.ledger.completed) :
    Books.Step P (s.books h) (s'.books h') := by
  cases hm with
  | other same =>
    refine books_refl ?_ ?_ same.recvBytesTotal same.recvBytesMax same.ledger
    · rw [held, held, same.recvTable, same.sendTable]
    · rw [receiving, receiving, same.recvTable]
  | flagRecv b he => exact books_setRecv he rfl rfl
  | flagSend b doc he =>
    refine books_refl (congrArg (· + _) ?_) rfl rfl rfl rfl
    rename_i i e
    exact add_right_cancel (held_setSend he { e with needsSendClose := b, doc := doc })
  | claim hP hh hs he hlt hmay => exact books_claim hh he hmay
  | lend hP hc hr =>
    refine books_setChannel hc ?_ rfl
    rw [channelHeld, OpenChannel.held, OpenChannel.held, hr]
    rfl
  | install hw hh he hdoc hP =>
    rename_i i e doc
    have hres : e.doc = .activeReserved := (hinv.entry _ _ he).reserved.mpr ⟨_, hh⟩
    refine books_setRecv he rfl ?_
    rw [Hand.claimedLen, Hand.claimedLen, hh, activeLen, activeLen, hres]
    exact Nat.add_comm doc.docLen 0
  | write hw he hdoc hsane hlen hmem =>
    refine books_setRecv he rfl ?_
    rw [activeLen, activeLen, hdoc]
    exact congrArg (· + _) hlen
  | closeRemote he =>
    refine books_setRecv he ?_ rfl
    simp only [RecvDocMutable.held, Hand.take, channelHeld, add_zero]
    abel
  | finish hw he hdoc hlen hP =>
    exact books_finish he hdoc ((hinv.entry _ _ he).sane _ hdoc) hP (hnew _ _ he (by rw [hdoc]; rfl)) _
  | reject hw hP he hdoc =>
    rename_i i e doc
    refine (congrArg (Books.Step P (s.books h)) ?_).mp
      (.reject ((s.setRecv i { e with doc := .finishing }).receiving + h.claimedLen) hP)
    rw [books, books, Books.mk.injEq]
    refine ⟨congrArg (· + _) ?_, rfl, rfl, rfl, rfl⟩
    exact (add_right_cancel (held_setRecv he { e with doc := .finishing })).symm
  | post hc =>
    refine books_setChannel hc ?_ rfl
    simp only [channelHeld, OpenChannel.held, readyHeld_append, Hand.take]
    abel
  | postReply hc hr =>
    refine books_setChannel hc ?_ rfl
    simp only [channelHeld, OpenChannel.held, hr, SpecialReplyState.held, Hand.take]
    abel
  | orphan he hlt hfin hex =>
    refine books_setRecv he ?_ rfl
    simp only [RecvDocMutable.held, readyHeld_append, Hand.take]
    abel
  | release u => exact .release u (add_assoc _ _ _).symm
  | retire he hno hfin hr =>
    refine books_setRecv he ?_ ?_
    · simp only [RecvDocMutable.held, Hand.take, channelHeld, add_zero]
      abel
    · rw [activeLen_of_not_isActive (not_isActive_of_slotIsFin hfin)]
      rfl
  | lose hP => exact .lose hP (add_assoc _ _ _).symm
  | deliver hc hd =>
    rename_i docNo channel docs d
    have hheld : channel.held = OpenChannel.held { channel with readyDocs := docs } + {.ready d} := by
      simp only [OpenChannel.held, hd, readyHeld_append]
      abel
    refine (congrArg (Books.Step P (s.books h)) ?_).mp (.deliver d (held_take hc hheld h))
    rw [books, books, Books.mk.injEq]
    exact ⟨rfl, congrArg (· + _) (receiving_setChannel hc _).symm, rfl, (setChannel_max _).symm, rfl⟩
  | deliverReply hc hr =>
    rename_i docNo len c channel
    have hheld : channel.held = OpenChannel.held { channel with replyBuffer := .none } + {.reply len c} := by
      simp only [OpenChannel.held, hr, SpecialReplyState.held, add_zero]
    refine (congrArg (Books.Step P (s.books h)) ?_).mp (.deliverReply (held_take hc hheld h))
    rw [books, books, Books.mk.injEq]
    exact ⟨rfl, congrArg (· + _) (receiving_setChannel hc _).symm, (setChannel_total _).symm, (setChannel_max _).symm, rfl⟩
  | count n hc hsettled => exact books_setChannel hc rfl rfl
  | closeLocal hc =>
    refine books_setChannel hc ?_ rfl
    simp only [Hand.take, channelHeld, zero_add]
    exact add_comm _ _
  | openChannel he hnone hr =>
    rename_i i docNo e replyBuffer doc
    refine books_refl (congrArg (· + _) ?_) rfl rfl rfl rfl
    have hheld := held_setSend he ⟨docNo, false, some doc, some ⟨1, [], replyBuffer⟩⟩
    simp only [SendDocMutable.held, hnone, channelHeld, OpenChannel.held, hr, readyHeld, List.map_nil,
      Multiset.coe_nil, add_zero] at hheld
    exact hheld

/-- What holds of every session: a completed document is settled, one that waits has not been released, and the books
are kept. -/
structure Inv (s : SessionInner T) (h : Hand) : Prop extends SlotInv s h where
  settled : ∀ d ∈ s.ledger.completed, ¬ s.isSending d ∧ s.Settled d
  kept : (s.books h).Kept
  unreleased : ∀ u ∈ s.held + h.docs, ∀ e : RecvDocMutable, s.recvTable[s.recvIdx u.docNo]? = some e → e.docNo = u.docNo → e.doc.slotIsFin

namespace Inv

lemma new_of_active (hinv : Inv s h) {e : RecvDocMutable} (he : s.recvTable[i]? = some e) (hact : e.doc.isActive) :
    e.docNo ∉ s.ledger.completed := by
  intro hd
  obtain ⟨hsend, hsettled⟩ := hinv.settled _ hd
  obtain ⟨-, hi⟩ := (hinv.entry i e he).placed hact
  rcases hsettled with hs | ⟨e', he', -, hdone⟩
  · exact hsend hs
  · rw [← hi, he] at he'
    obtain rfl := Option.some.inj he'
    exact hdone rfl hact

/-- The slot of a document that waits: what can be there with its number is finished. -/
lemma exists_slot (hinv : Inv s h) {u : Undelivered} (hu : u ∈ s.held + h.docs) :
    ∃ e : RecvDocMutable, s.recvTable[s.recvIdx u.docNo]? = some e ∧ u.docNo ≤ e.docNo ∧ (e.docNo = u.docNo → e.doc.slotIsFin) := by
  obtain ⟨hsend, hsettled⟩ := hinv.settled _ (hinv.kept.mem_completed hu)
  rcases hsettled with hs | ⟨e, he, hle, -⟩
  · exact absurd hs hsend
  · exact ⟨e, he, hle, hinv.unreleased u hu e he⟩

end Inv

lemma Move.completed (hm : Move P s h s' h') : s'.ledger.completed = s.ledger.completed ∨
    ∃ (i : ℕ) (e e' : RecvDocMutable), s.recvTable[i]? = some e ∧ e.doc.isActive ∧ s'.ledger.completed = s.ledger.completed ++ [e.docNo] ∧
      s'.recvTable[i]? = some e' ∧ e'.docNo = e.docNo ∧ e'.doc = .finishing := by
  cases hm with
  | other same => exact .inl (congrArg _ same.ledger)
  | finish hw he hdoc =>
    exact .inr ⟨_, _, _, he, by rw [hdoc]; rfl, rfl, getElem?_set_of_getElem? he _, rfl, rfl⟩
  | lend | post | postReply | count | closeLocal => exact .inl (congrArg _ (setChannel_ledger _))
  | _ => exact .inl rfl

lemma Move.inv (hm : Move P s h s' h') (hinv : Inv s h) : Inv s' h' := by
  have hstepped := hm.stepped
  have hslots := hstepped.slotInv hinv.toSlotInv
  have hbooks := hm.books hinv.toSlotInv fun j e he hact => hinv.new_of_active he hact
  -- the document that this step completes, if any, is in a slot of its own
  have hnew : ∀ d ∈ s'.ledger.completed, d ∈ s.ledger.completed ∨ ¬ s.isSending d ∧
      ∃ e' : RecvDocMutable, s'.recvTable[s'.recvIdx d]? = some e' ∧ e'.docNo = d ∧ e'.doc = .finishing := by
    intro d hd
    rcases hm.completed with heq | ⟨i, e, e', he, hact, heq, he', hno, hdoc⟩
    · exact .inl (heq ▸ hd)
    · rw [heq, List.mem_append, List.mem_singleton] at hd
      rcases hd with hd | rfl
      · exact .inl hd
      · obtain ⟨hsend, hi⟩ := (hinv.entry i e he).placed hact
        refine .inr ⟨hsend, e', ?_, hno, hdoc⟩
        rw [hstepped.recvIdx, ← hi]
        exact he'
  refine ⟨hslots, fun d hd => ?_, hbooks.kept hinv.kept, fun u hu e' he' hno => ?_⟩
  · rw [hstepped.isSending]
    rcases hnew d hd with hd | ⟨hsend, e', he', hno, hdoc⟩
    · exact ⟨(hinv.settled d hd).1, hstepped.settled hinv.toSlotInv (hinv.settled d hd).2⟩
    · refine ⟨hsend, .inr ⟨e', he', hno.ge, fun _ => ?_⟩⟩
      rw [hdoc]
      exact Bool.false_ne_true
  · rcases hbooks.mem_held hu with hold | hcompleted
    · obtain ⟨e, he, hle, hfin⟩ := hinv.exists_slot hold
      rw [hstepped.recvIdx] at he'
      obtain ⟨e₀, he₀, hstep⟩ := hstepped.entry _ e' he'
      obtain rfl : e = e₀ := Option.some.inj (he.symm.trans he₀)
      have hreserved : ∀ {b : Prop}, h.Claims (s.recvIdx u.docNo) → e.docNo = u.docNo → b := fun ha heq =>
        absurd (isActive_of_reserved ((hinv.entry _ e he).reserved.mpr ha)) (not_isActive_of_slotIsFin (hfin heq))
      cases hstep with
      | channel => exact hfin hno
      | claim _ _ _ hlt => exact absurd hno (by dsimp only; omega)
      | install _ ha => exact hreserved ha hno
      | write _ _ hdoc =>
        have hactive := not_isActive_of_slotIsFin (hfin hno)
        rw [hdoc] at hactive
        exact absurd rfl hactive
      | finish => rfl
      | orphan => exact hfin hno
      | retire _ _ hr => exact absurd (hno ▸ hr) (hinv.kept.notMem_released hold)
    · have hd : u.docNo ∈ s'.ledger.completed := by
        rw [show s'.ledger.completed = _ from hcompleted]
        exact List.mem_append_right _ (List.mem_singleton_self _)
      rcases hnew _ hd with hold | ⟨-, e₁, he₁, -, hdoc⟩
      · have hdup := (hbooks.kept hinv.kept).nodup
        rw [hcompleted, List.nodup_append] at hdup
        exact absurd rfl (hdup.2.2 _ hold _ (List.mem_singleton_self _))
      · obtain rfl : e' = e₁ := Option.some.inj (he'.symm.trans he₁)
        rw [hdoc]
        rfl

lemma Moves.inv (hm : Moves P s h s' h') (hinv : Inv s h) : Inv s' h' := by
  induction hm with
  | refl => exact hinv
  | tail _ hmove ih => exact hmove.inv (ih hinv)

end SessionInner

end Pqsnet.Session
