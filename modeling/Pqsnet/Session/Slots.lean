import Pqsnet.Session.Moves

/-! What a small step does to one slot of the receive table. -/

namespace Pqsnet.Session

open Checked Outcome

namespace SessionInner

variable {T : Type} {s s' : SessionInner T} {P : Permits} {h h' : Hand} {i docNo : ℕ}

/-! Only the slot of a document is written. -/

lemma isSending_setChannel (channel : Option OpenChannel) (no : ℕ) :
    (s.setChannel docNo channel).isSending no = s.isSending no := by
  unfold setChannel
  split <;> rfl

lemma channelOf_cases {channel : OpenChannel} (hc : s.channelOf docNo = some channel) :
    (∃ e, s.sendTable[s.sendIdx docNo]? = some e ∧ e.docNo = docNo ∧ e.channel = some channel ∧ s.isSending docNo ∧
      ∀ c, s.setChannel docNo c = s.setSend (s.sendIdx docNo) { e with channel := c }) ∨
    (∃ e, s.recvTable[s.recvIdx docNo]? = some e ∧ e.docNo = docNo ∧ e.channel = some channel ∧ ¬ s.isSending docNo ∧
      ∀ c, s.setChannel docNo c = s.setRecv (s.recvIdx docNo) { e with channel := c }) := by
  unfold channelOf at hc
  split at hc
  · rename_i hs
    obtain ⟨e, he, hc⟩ := Option.bind_eq_some_iff.mp hc
    split at hc
    · refine .inl ⟨e, he, ‹_›, hc, hs, fun c => ?_⟩
      rw [setChannel, if_pos hs, modifySend, modify_eq_set he]
      rfl
    · cases hc
  · rename_i hs
    obtain ⟨e, he, hc⟩ := Option.bind_eq_some_iff.mp hc
    split at hc
    · refine .inr ⟨e, he, ‹_›, hc, hs, fun c => ?_⟩
      rw [setChannel, if_neg hs, modifyRecv, modify_eq_set he]
      rfl
    · cases hc

lemma slot_of_getElem? {α ε : Type} {table : List α} {x : α} (hx : table[(docNo >>> 1) % table.length]? = some x) :
    (slot docNo table.length : Outcome ε ℕ) = .ok ((docNo >>> 1) % table.length) ∧
      (entryAt table ((docNo >>> 1) % table.length) : Outcome ε α) = .ok x := by
  have hpos : table.length ≠ 0 := Nat.ne_zero_of_lt (List.getElem?_eq_some_iff.mp hx).1
  rw [slot, if_neg hpos, entryAt, hx]
  exact ⟨rfl, rfl⟩

lemma channelSlot_eq {ε : Type} {channel : OpenChannel} (hc : s.channelOf docNo = some channel) :
    (s.channelSlot docNo : Outcome ε _) = .ok (docNo, some channel) := by
  rcases channelOf_cases hc with ⟨e, he, hno, hch, hs, -⟩ | ⟨e, he, hno, hch, hs, -⟩
  · obtain ⟨hslot, hentry⟩ := slot_of_getElem? (ε := ε) he
    rw [channelSlot, if_pos hs, hslot, ok_bind, hentry, ok_bind, hno, hch]
  · obtain ⟨hslot, hentry⟩ := slot_of_getElem? (ε := ε) he
    rw [channelSlot, if_neg hs, hslot, ok_bind, hentry, ok_bind, hno, hch]

/-- Whether a thread reserved a slot. -/
def Hand.Claims (h : Hand) (i : ℕ) : Prop := ∃ n, h.claimed = some (i, n)

/-- Closing or changing the channel of a slot. A reply buffer does not appear, and a document that is being received
gets no references. -/
def ChannelStep (e : RecvDocMutable) (channel : Option OpenChannel) : Prop := ∀ c, channel = some c →
  ∃ c₀, e.channel = some c₀ ∧ (c₀.replyBuffer = .none → c.replyBuffer = .none) ∧ (e.doc.isActive → c.refCount = c₀.refCount)

/-- What can happen to slot `i`. The propositions say whether it is reserved before and after. -/
inductive EntryStep (P : Permits) (s : SessionInner T) (i : ℕ) : Prop → Prop → RecvDocMutable → RecvDocMutable → Prop
  | channel {a a' : Prop} {e : RecvDocMutable} {c : Option OpenChannel} (b : Bool) (ha : a' ↔ a) (hc : ChannelStep e c) :
      EntryStep P s i a a' e { e with channel := c, needsSendControl := b }
  | claim {a a' : Prop} {e : RecvDocMutable} {docNo : ℕ} {c : Option OpenChannel} (hP : P.claim) (ha : a')
      (hs : ¬ s.isSending docNo) (hi : i = s.recvIdx docNo) (hlt : e.docNo < docNo) (hfin : e.doc.slotIsFin)
      (hex : e.orphansExpectedParentNo.all (· = docNo)) (hc : ∀ c', c = some c' → c' = ⟨0, e.adoptableOrphans, .none⟩) :
      EntryStep P s i a a' e { e with
        docNo := docNo, needsSendControl := false, doc := .activeReserved, adoptableOrphans := [], channel := c }
  | install {a a' : Prop} {e : RecvDocMutable} {doc : RecvDoc} (hw : P.write) (ha : a) (ha' : ¬ a')
      (hdoc : doc.Sane) :
      EntryStep P s i a a' e { e with doc := .active doc }
  | write {a a' : Prop} {e : RecvDocMutable} {doc doc' : RecvDoc} (hw : P.write) (ha : a' ↔ a) (hdoc : e.doc = .active doc)
      (hsane : doc'.Sane) : EntryStep P s i a a' e { e with doc := .active doc' }
  | finish {a a' : Prop} {e : RecvDocMutable} {doc : RecvDoc} {c : Option OpenChannel} (hw : P.write)
      (ha : a' ↔ a) (hdoc : e.doc = .active doc) (hc : c = e.channel ∨ c = e.channel.map OpenChannel.addRef) :
      EntryStep P s i a a' e { e with doc := .finishing, channel := c }
  | orphan {a a' : Prop} {e : RecvDocMutable} {d : UnfinishedRecvDoc} (ha : a' ↔ a) (hlt : e.docNo < d.parentNo)
      (hex : e.orphansExpectedParentNo.all (· = d.parentNo)) :
      EntryStep P s i a a' e { e with
        orphansExpectedParentNo := some d.parentNo, adoptableOrphans := e.adoptableOrphans ++ [d] }
  | retire {a a' : Prop} {e : RecvDocMutable} (ha : a' ↔ a) (hfin : e.doc.slotIsFin) (hr : e.docNo ∈ s.ledger.released) :
      EntryStep P s i a a' e { e with doc := .finParentClose, channel := none, needsSendControl := true }

lemma EntryStep.refl {a a' : Prop} {e : RecvDocMutable} (ha : a' ↔ a) : EntryStep P s i a a' e e :=
  .channel (c := e.channel) e.needsSendControl ha fun c hc => ⟨c, hc, id, fun _ => rfl⟩

/-- A step on the slots, all at once. -/
structure Stepped (P : Permits) (s : SessionInner T) (h : Hand) (s' : SessionInner T) (h' : Hand) : Prop where
  isInitiator : s'.isInitiator = s.isInitiator
  recvLength : s'.recvTable.length = s.recvTable.length
  sendLength : s'.sendTable.length = s.sendTable.length
  sendDocNo : s'.sendDocNo = s.sendDocNo ∨ s'.sendDocNo = (s.sendDocNo + 2) % 2 ^ 64
  entry : ∀ j e', s'.recvTable[j]? = some e' → ∃ e, s.recvTable[j]? = some e ∧ EntryStep P s j (h.Claims j) (h'.Claims j) e e'

lemma Stepped.of_recvTable (hi : s'.isInitiator = s.isInitiator) (ht : s'.recvTable = s.recvTable)
    (hl : s'.sendTable.length = s.sendTable.length)
    (hn : s'.sendDocNo = s.sendDocNo ∨ s'.sendDocNo = (s.sendDocNo + 2) % 2 ^ 64) (hh : h'.claimed = h.claimed) :
    Stepped P s h s' h' := by
  refine ⟨hi, congrArg _ ht, hl, hn, fun j e' he' => ⟨e', ht ▸ he', .refl ?_⟩⟩
  rw [Hand.Claims, Hand.Claims, hh]

lemma Stepped.of_set {e e' : RecvDocMutable} (he : s.recvTable[i]? = some e) (hi : s'.isInitiator = s.isInitiator)
    (ht : s'.recvTable = s.recvTable.set i e') (hl : s'.sendTable = s.sendTable) (hn : s'.sendDocNo = s.sendDocNo)
    (hstep : EntryStep P s i (h.Claims i) (h'.Claims i) e e') (hh : ∀ j, j ≠ i → (h'.Claims j ↔ h.Claims j)) :
    Stepped P s h s' h' := by
  refine ⟨hi, by rw [ht, List.length_set], by rw [hl], .inl hn, fun j e₁ he₁ => ?_⟩
  rw [ht] at he₁
  rcases getElem?_set_cases he₁ with ⟨rfl, rfl⟩ | ⟨hj, he₁⟩
  · exact ⟨e, he, hstep⟩
  · exact ⟨e₁, he₁, .refl (hh j hj)⟩

lemma Stepped.of_channel {channel : OpenChannel} {c : Option OpenChannel} (hc : s.channelOf docNo = some channel)
    (hi : s'.isInitiator = (s.setChannel docNo c).isInitiator) (ht : s'.recvTable = (s.setChannel docNo c).recvTable)
    (hl : s'.sendTable = (s.setChannel docNo c).sendTable) (hn : s'.sendDocNo = (s.setChannel docNo c).sendDocNo)
    (hstep : ∀ e, s.recvTable[s.recvIdx docNo]? = some e → e.docNo = docNo → e.channel = some channel →
      ¬ s.isSending docNo → ChannelStep e c) (hh : h'.claimed = h.claimed) : Stepped P s h s' h' := by
  have hclaims : ∀ j, h'.Claims j ↔ h.Claims j := fun j => by rw [Hand.Claims, Hand.Claims, hh]
  rcases channelOf_cases hc with ⟨e, he, -, -, -, hset⟩ | ⟨e, he, hno, hch, hs, hset⟩
  · rw [hset] at hi ht hl hn
    exact .of_recvTable hi ht (by rw [hl]; exact List.length_set) (.inl hn) hh
  · rw [hset] at hi ht hl hn
    refine .of_set he hi ht hl hn ?_ fun j _ => hclaims j
    exact .channel e.needsSendControl (hclaims _) (hstep e he hno hch hs)

lemma ChannelStep.none (e : RecvDocMutable) : ChannelStep e none := fun _ h => by cases h

lemma ChannelStep.some {e : RecvDocMutable} {c₀ c : OpenChannel} (hc : e.channel = some c₀)
    (hr : c₀.replyBuffer = .none → c.replyBuffer = .none) (hn : e.doc.isActive → c.refCount = c₀.refCount) :
    ChannelStep e (Option.some c) := by
  rintro _ ⟨⟩
  exact ⟨c₀, hc, hr, hn⟩

/-- Every small step is one of the few things that can happen to a slot. -/
lemma Move.stepped (hm : Move P s h s' h') : Stepped P s h s' h' := by
  cases hm with
  | other same =>
    exact .of_recvTable same.isInitiator same.recvTable (by rw [same.sendTable]) same.sendDocNo rfl
  | flagRecv b he =>
    exact .of_set he rfl rfl rfl rfl (.channel b Iff.rfl fun c hc => ⟨c, hc, id, fun _ => rfl⟩) fun _ _ => Iff.rfl
  | flagSend b doc he => exact .of_recvTable rfl rfl List.length_set (.inl rfl) rfl
  | claim hP hh hs he hlt hmay =>
    simp only [mayClaim, Bool.and_eq_true] at hmay
    refine .of_set he rfl rfl rfl rfl ?_ fun j hj => ?_
    · refine .claim hP ⟨_, rfl⟩ hs rfl hlt hmay.1.1 hmay.1.2 fun c' hc' => ?_
      split at hc'
      · cases hc'
      · exact (Option.some.inj hc').symm
    · simp only [Hand.Claims, hh, Option.some.injEq, Prod.mk.injEq, reduceCtorEq, exists_false, iff_false]
      rintro ⟨n, hn, -⟩
      exact hj hn.symm
  | lend hP hc hr =>
    refine .of_channel hc rfl rfl rfl rfl (fun e _ _ he _ => .some he ?_ fun _ => rfl) rfl
    intro hnone
    rw [hr] at hnone
    cases hnone
  | install hw hh he hdoc hP =>
    refine .of_set he rfl rfl rfl rfl (.install hw ⟨_, hh⟩ ?_ hdoc) fun j hj => ?_
    · rintro ⟨n, hn⟩
      cases hn
    · simp only [Hand.Claims, hh, Option.some.injEq, Prod.mk.injEq, reduceCtorEq, exists_false, false_iff]
      rintro ⟨n, hn, -⟩
      exact hj hn.symm
  | write hw he hdoc hsane hlen hmem => exact .of_set he rfl rfl rfl rfl (.write hw Iff.rfl hdoc hsane) fun _ _ => Iff.rfl
  | closeRemote he => exact .of_set he rfl rfl rfl rfl (.channel _ Iff.rfl (.none _)) fun _ _ => Iff.rfl
  | finish hw he hdoc hlen hP => exact .of_set he rfl rfl rfl rfl (.finish hw Iff.rfl hdoc (.inr rfl)) fun _ _ => Iff.rfl
  | reject hw hP he hdoc => exact .of_set he rfl rfl rfl rfl (.finish hw Iff.rfl hdoc (.inl rfl)) fun _ _ => Iff.rfl
  | post hc => exact .of_channel hc rfl rfl rfl rfl (fun e _ _ he _ => .some he id fun _ => rfl) rfl
  | postReply hc hr =>
    refine .of_channel hc rfl rfl rfl rfl (fun e _ _ he _ => .some he ?_ fun _ => rfl) rfl
    intro hnone
    rw [hr] at hnone
    cases hnone
  | orphan he hlt hfin hex => exact .of_set he rfl rfl rfl rfl (.orphan Iff.rfl hlt hex) fun _ _ => Iff.rfl
  | release u => exact .of_recvTable rfl rfl rfl (.inl rfl) rfl
  | retire he hno hfin hr => exact .of_set he rfl rfl rfl rfl (.retire Iff.rfl hfin (hno ▸ hr)) fun _ _ => Iff.rfl
  | lose hP => exact .of_recvTable rfl rfl rfl (.inl rfl) rfl
  | deliver hc hd => exact .of_channel hc rfl rfl rfl rfl (fun e _ _ he _ => .some he id fun _ => rfl) rfl
  | deliverReply hc hr => exact .of_channel hc rfl rfl rfl rfl (fun e _ _ he _ => .some he (fun _ => rfl) fun _ => rfl) rfl
  | count n hc hsettled =>
    refine .of_channel hc rfl rfl rfl rfl (fun e he hno hch hs => .some hch id fun hact => ?_) rfl
    rcases hsettled with hs' | ⟨e', he', -, hdone⟩
    · exact absurd hs' hs
    · obtain rfl : e = e' := Option.some.inj (he.symm.trans he')
      exact absurd hact (hdone hno)
  | closeLocal hc => exact .of_channel hc rfl rfl rfl rfl (fun e _ _ _ _ => .none e) rfl
  | openChannel he hnone hr => exact .of_recvTable rfl rfl List.length_set (.inl rfl) rfl

/-- What holds of every slot: a document that is being received is in its own slot, and no reply buffer waits for
the children of a document that was received. -/
structure EntryOk (s : SessionInner T) (h : Hand) (i : ℕ) (e : RecvDocMutable) : Prop where
  placed : e.doc.isActive → ¬ s.isSending e.docNo ∧ i = s.recvIdx e.docNo
  reserved : e.doc = .activeReserved ↔ h.Claims i
  reply : ∀ c, e.channel = some c → c.replyBuffer = .none
  fresh : e.doc.isActive → ∀ c, e.channel = some c → c.refCount = 0
  sane : ∀ doc, e.doc = .active doc → doc.Sane

structure SlotInv (s : SessionInner T) (h : Hand) : Prop where
  recvPos : 0 < s.recvTable.length
  sendPos : 0 < s.sendTable.length
  parity : s.isSending s.sendDocNo
  entry : ∀ i e, s.recvTable[i]? = some e → EntryOk s h i e

lemma isActive_of_reserved {d : RecvDocState} (h : d = .activeReserved) : d.isActive := by
  rw [h]
  rfl

lemma not_isActive_of_slotIsFin {d : RecvDocState} (h : d.slotIsFin) : ¬ d.isActive := by
  cases d <;> first | exact Bool.false_ne_true | cases h

/-- The number in a slot never goes back, and a document that is not being received any more stays so. -/
lemma EntryStep.later {a a' : Prop} {e e' : RecvDocMutable} (hstep : EntryStep P s i a a' e e') (ha : a → e.doc.isActive) :
    e.docNo ≤ e'.docNo ∧ (e'.docNo = e.docNo → ¬ e.doc.isActive → ¬ e'.doc.isActive) := by
  cases hstep with
  | channel => exact ⟨le_rfl, fun _ h => h⟩
  | claim hP ha' hs hi hlt => exact ⟨hlt.le, fun heq => absurd heq hlt.ne'⟩
  | install _ h => exact ⟨le_rfl, fun _ hn => absurd (ha h) hn⟩
  | write _ _ hdoc => exact ⟨le_rfl, fun _ hn => absurd (by rw [hdoc]; rfl) hn⟩
  | finish => exact ⟨le_rfl, fun _ _ => Bool.false_ne_true⟩
  | orphan => exact ⟨le_rfl, fun _ h => h⟩
  | retire => exact ⟨le_rfl, fun _ _ => Bool.false_ne_true⟩

lemma EntryStep.ok {e e' : RecvDocMutable} (hstep : EntryStep P s i (h.Claims i) (h'.Claims i) e e') (hok : EntryOk s h i e) :
    EntryOk s h' i e' := by
  cases hstep with
  | channel b ha hc =>
    refine ⟨hok.placed, hok.reserved.trans ha.symm, fun c hcs => ?_, fun hact c hcs => ?_, hok.sane⟩
    · obtain ⟨c₀, hc₀, hr, -⟩ := hc c hcs
      exact hr (hok.reply c₀ hc₀)
    · obtain ⟨c₀, hc₀, -, hn⟩ := hc c hcs
      exact (hn hact).trans (hok.fresh hact c₀ hc₀)
  | claim hP ha hs hi hlt _ _ hc =>
    refine ⟨fun _ => ⟨hs, hi⟩, iff_of_true rfl ha, fun c hcs => ?_, fun _ c hcs => ?_, fun doc hdoc => by cases hdoc⟩
    · rw [hc c hcs]
    · rw [hc c hcs]
  | install _ ha ha' hdoc =>
    have hact : e.doc.isActive := isActive_of_reserved (hok.reserved.mpr ha)
    refine ⟨fun _ => hok.placed hact, iff_of_false (by simp) ha', hok.reply, fun _ => hok.fresh hact, fun doc hd => ?_⟩
    cases hd
    exact hdoc
  | write _ ha hdoc hsane =>
    have hact : e.doc.isActive := by
      rw [hdoc]
      rfl
    refine ⟨fun _ => hok.placed hact, ?_, hok.reply, fun _ => hok.fresh hact, fun d hd => ?_⟩
    · rw [ha, ← hok.reserved, hdoc]
      simp
    · cases hd
      exact hsane
  | finish _ ha hdoc hc =>
    refine ⟨fun hact => absurd hact Bool.false_ne_true, ?_, fun c hcs => ?_, fun hact => absurd hact Bool.false_ne_true,
      fun d hd => by cases hd⟩
    · rw [ha, ← hok.reserved, hdoc]
      simp
    · rcases hc with rfl | rfl
      · exact hok.reply c hcs
      · obtain ⟨c₀, hc₀, rfl⟩ := Option.map_eq_some_iff.mp hcs
        exact hok.reply c₀ hc₀
  | orphan ha => exact ⟨hok.placed, hok.reserved.trans ha.symm, hok.reply, hok.fresh, hok.sane⟩
  | retire ha hfin =>
    have hreserved : e.doc ≠ .activeReserved := fun hr => not_isActive_of_slotIsFin hfin (isActive_of_reserved hr)
    refine ⟨fun hact => absurd hact Bool.false_ne_true, ?_, fun c hcs => (by cases hcs),
      fun hact => absurd hact Bool.false_ne_true, fun d hd => by cases hd⟩
    rw [ha, ← hok.reserved]
    exact iff_of_false (by simp) hreserved

lemma isSending_add_two (s : SessionInner T) (no : ℕ) : s.isSending ((no + 2) % 2 ^ 64) = s.isSending no := by
  have hpar : (no + 2) % 2 ^ 64 &&& 1 = no &&& 1 := by
    simp only [Nat.and_one_is_mod]
    omega
  rw [SessionInner.isSending, SessionInner.isSending, hpar]

lemma Stepped.isSending (hs : Stepped P s h s' h') (no : ℕ) : s'.isSending no = s.isSending no := by
  rw [SessionInner.isSending, SessionInner.isSending, hs.isInitiator]

lemma Stepped.recvIdx (hs : Stepped P s h s' h') (no : ℕ) : s'.recvIdx no = s.recvIdx no := by
  rw [SessionInner.recvIdx, SessionInner.recvIdx, hs.recvLength]

lemma Stepped.slotInv (hs : Stepped P s h s' h') (hinv : SlotInv s h) : SlotInv s' h' := by
  refine ⟨hs.recvLength ▸ hinv.recvPos, hs.sendLength ▸ hinv.sendPos, ?_, fun i e' he' => ?_⟩
  · rw [hs.isSending]
    rcases hs.sendDocNo with heq | heq
    · rw [heq]
      exact hinv.parity
    · rw [heq, isSending_add_two]
      exact hinv.parity
  · obtain ⟨e, he, hstep⟩ := hs.entry i e' he'
    have hok := hstep.ok (hinv.entry i e he)
    refine ⟨fun hact => ?_, hok.reserved, hok.reply, hok.fresh, hok.sane⟩
    rw [hs.isSending, hs.recvIdx]
    exact hok.placed hact

lemma Stepped.settled (hs : Stepped P s h s' h') (hinv : SlotInv s h) (hd : s.Settled docNo) : s'.Settled docNo := by
  rcases hd with hsend | ⟨e, he, hle, hdone⟩
  · exact .inl ((hs.isSending docNo).trans hsend)
  have hlt : s.recvIdx docNo < s'.recvTable.length := hs.recvLength ▸ (List.getElem?_eq_some_iff.mp he).1
  obtain ⟨e', he'⟩ : ∃ e', s'.recvTable[s.recvIdx docNo]? = some e' := ⟨_, List.getElem?_eq_getElem hlt⟩
  obtain ⟨e₀, he₀, hstep⟩ := hs.entry _ e' he'
  obtain rfl : e = e₀ := Option.some.inj (he.symm.trans he₀)
  obtain ⟨hno, hact⟩ := hstep.later fun ha => isActive_of_reserved ((hinv.entry _ e he).reserved.mpr ha)
  refine .inr ⟨e', by rw [hs.recvIdx]; exact he', hle.trans hno, fun heq => ?_⟩
  have hsame : e'.docNo = e.docNo := le_antisymm (heq.trans_le hle) hno
  exact hact hsame (hdone (hsame.symm.trans heq))

end SessionInner

end Pqsnet.Session
