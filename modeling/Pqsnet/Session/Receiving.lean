import Pqsnet.Session.Dropping

/-! What a segment does to a session is made of small steps. -/

namespace Pqsnet.Session

open Checked Outcome

variable {T ε : Type} {S : Panic → Prop}

namespace DocMem

/-- Whether a document is received into a buffer of the application. -/
def Borrowed : DocMem → Prop
  | simple _ => False
  | replyBuf _ _ => True

lemma exists_simple {mem : DocMem} (h : ¬ mem.Borrowed) : ∃ m, mem = .simple m := by
  cases mem with
  | simple m => exact ⟨m, rfl⟩
  | replyBuf => exact absurd trivial h

end DocMem

namespace RecvDoc

variable {doc : RecvDoc} {segOff segEnd : ℕ} {seg : Bytes} {setSegs : List (BitVec 64)}

/-- How many bits are set. -/
def bitCount (setSegs : List (BitVec 64)) : ℕ := (setSegs.map fun x => (ones x).length).sum

lemma bitCount_le (setSegs : List (BitVec 64)) : bitCount setSegs ≤ setSegs.length * 64 := by
  have hle := List.sum_le_card_nsmul (setSegs.map fun x => (ones x).length) 64 fun n hn => by
    obtain ⟨x, -, rfl⟩ := List.mem_map.mp hn
    exact ones_length_le x
  rwa [List.length_map] at hle

lemma ends_checkOverlaps {P : ε → Prop} {ms : List (ℕ × BitVec 64)} (hS : (∃ x ∈ ms, setSegs.length ≤ x.1) → S .index) :
    Ends S P (fun r => r.2.length = setSegs.length ∧ bitCount r.2 = bitCount setSegs + r.1) (checkOverlaps ms setSegs) := by
  induction ms generalizing setSegs with
  | nil => exact ⟨rfl, rfl⟩
  | cons x ms ih =>
    obtain ⟨idx, setBits⟩ := x
    unfold checkOverlaps checkOverlap
    cases hx : setSegs[idx]? with
    | none => exact hS ⟨_, List.mem_cons_self, List.getElem?_eq_none_iff.mp hx⟩
    | some preBits =>
      have hcount := sum_map_set (fun x : BitVec 64 => (ones x).length) hx (preBits ||| setBits)
      rw [ones_or_length] at hcount
      rw [ok_bind]
      apply (ih fun ⟨x, hm, hl⟩ => hS ⟨x, List.mem_cons_of_mem _ hm, by rwa [List.length_set] at hl⟩).bind
      rintro ⟨m, segs⟩ ⟨hlen, hsum⟩
      refine ⟨hlen.trans List.length_set, ?_⟩
      simp only [bitCount] at hsum hcount ⊢
      omega

lemma marks_eq (hle : segOff ≤ segEnd) : ∃ ms, (marks segOff segEnd : Outcome ε _) = .ok ms ∧ ∀ x ∈ ms, x.1 ≤ segEnd / 64 := by
  have hdiv : segOff / 64 ≤ segEnd / 64 := Nat.div_le_div_right hle
  unfold marks
  dsimp only
  split_ifs with heq
  · exact ⟨_, rfl, fun x hx => by rw [List.mem_singleton.mp hx]; exact hdiv⟩
  · rw [sub_ok (by omega), ok_bind]
    refine ⟨_, rfl, fun x hx => ?_⟩
    rw [List.mem_cons, List.mem_append, List.mem_map, List.mem_singleton] at hx
    rcases hx with rfl | ⟨k, hk, rfl⟩ | rfl
    · exact hdiv
    · rw [List.mem_range'_1] at hk
      dsimp only
      omega
    · exact le_rfl

/-- What a segment leaves of a document that is being received. -/
structure Took (doc : RecvDoc) (complete : Bool) (doc' : RecvDoc) : Prop where
  sane : doc'.Sane
  docLen : doc'.docLen = doc.docLen
  parentNo : doc'.parentNo = doc.parentNo
  hasSpecialParent : doc'.hasSpecialParent = doc.hasSpecialParent
  borrowed : doc'.mem.Borrowed ↔ doc.mem.Borrowed
  complete : complete = true → doc'.totalRecv = doc'.mem.len

lemma ends_write {P : ε → Prop} {mem : DocMem} (hend : segOff + seg.length ≤ mem.len) (hlen : segOff + seg.length < 2 ^ 64)
    (hS : mem.Borrowed → S .assertion) :
    Ends S P (fun mem' => mem'.len = mem.len ∧ (mem'.Borrowed ↔ mem.Borrowed)) (mem.write segOff seg) := by
  cases mem with
  | simple m =>
    have hm : segOff + seg.length ≤ m.length := hend
    rw [DocMem.write, add_ok hlen, ok_bind, if_pos ⟨by omega, hm⟩]
    refine ⟨?_, Iff.rfl⟩
    simp only [DocMem.len, List.length_append, List.length_take, List.length_map, List.length_drop]
    omega
  | replyBuf range m =>
    rw [DocMem.write]
    split_ifs
    · exact ⟨rfl, Iff.rfl⟩
    · exact hS trivial

lemma ends_recvDoc (hdoc : doc.Sane) (hS : ∀ p, doc.mem.Borrowed ∨ (p = .arith ∧ seg ≠ [] ∧ 2 ^ 64 ≤ segOff + seg.length) → S p) :
    Ends S (fun _ => True) (fun r => Took doc r.1 r.2) (doc.recvDoc segOff seg) := by
  unfold recvDoc
  dsimp only
  split_ifs with hempty
  · refine ⟨hdoc, rfl, rfl, rfl, Iff.rfl, fun hc => ?_⟩
    have hzero : doc.mem.len = 0 := of_decide_eq_true hc
    rw [hzero, hdoc.empty hzero]
  have hne : seg ≠ [] := fun h => hempty (List.isEmpty_iff.mpr h)
  have hpos : 0 < seg.length := List.length_pos_iff.mpr hne
  have hadd : Ends S (fun _ : RecvError => True) (fun n => n = segOff + seg.length ∧ segOff + seg.length < 2 ^ 64)
      (add segOff seg.length) := by
    by_cases h64 : segOff + seg.length < 2 ^ 64
    · rw [add_ok h64]
      exact ⟨rfl, h64⟩
    · rw [add, if_neg h64]
      exact hS _ (.inr ⟨rfl, hne, not_lt.mp h64⟩)
  apply hadd.bind
  rintro _ ⟨rfl, h64⟩
  rw [sub_ok (by omega), ok_bind]
  split_ifs with hend
  · trivial
  obtain ⟨ms, hms, hidx⟩ := marks_eq (ε := RecvError) (show segOff ≤ segOff + seg.length - 1 by omega)
  rw [hms, ok_bind]
  -- memory of its own is as long as was announced, so the bitmap covers it
  have hlong : ¬ doc.mem.Borrowed → doc.mem.len = doc.docLen ∧ doc.docLen < 2 ^ 63 := by
    intro hb
    obtain ⟨m, hm⟩ := DocMem.exists_simple hb
    refine ⟨?_, hdoc.small m hm⟩
    rw [hm]
    exact hdoc.simple m hm
  have hindex : (∃ x ∈ ms, doc.setSegs.length ≤ x.1) → S .index := by
    rintro ⟨x, hx, hge⟩
    by_cases hb : doc.mem.Borrowed
    · exact hS _ (.inl hb)
    · have hx := hidx x hx
      have hw := hdoc.words
      have hl := (hlong hb).1
      omega
  apply (ends_checkOverlaps hindex).bind
  rintro ⟨n, segs⟩ ⟨hlen, hcount⟩
  have htotal : doc.totalRecv + n = bitCount segs := by
    rw [hcount, hdoc.total]
    rfl
  have hadd : Ends S (fun _ : RecvError => True) (fun k => k = doc.totalRecv + n) (add doc.totalRecv n) := by
    by_cases hb : doc.mem.Borrowed
    · exact ends_add (hS _ (.inl hb)) rfl
    · have hle := bitCount_le segs
      have hw := hdoc.words
      have hl := hlong hb
      dsimp only at hlen
      rw [add_ok (by omega)]
      rfl
  apply hadd.bind
  rintro _ rfl
  apply (ends_write (by omega) h64 fun hb => hS _ (.inl hb)).bind
  rintro mem' ⟨hmem, hborrowed⟩
  refine ⟨⟨fun m hm => ?_, hlen.trans hdoc.words, fun m hm => ?_, htotal, fun hzero => ?_⟩, rfl, rfl, rfl, hborrowed, fun hc => ?_⟩
  · have hb : ¬ doc.mem.Borrowed := by
      rw [← hborrowed, show mem' = _ from hm]
      exact id
    rw [show mem' = _ from hm] at hmem
    exact hmem.trans (hlong hb).1
  · have hb : ¬ doc.mem.Borrowed := by
      rw [← hborrowed, show mem' = _ from hm]
      exact id
    exact (hlong hb).2
  · rw [show mem'.len = _ from hmem] at hzero
    omega
  · exact (of_decide_eq_true hc).trans hmem.symm

end RecvDoc

/-- The segment would be written behind the end of the address space. -/
def SegFrame.Overflows (f : SegFrame) : Prop := f.data ≠ [] ∧ 2 ^ 64 ≤ f.off + f.data.length

/-- The document that is being received in a slot uses a reply buffer. -/
def RecvDocMutable.Borrows (e : RecvDocMutable) : Prop := ∃ doc, e.doc = .active doc ∧ doc.mem.Borrowed

namespace SessionInner

variable {s : SessionInner T} {P : Permits} {h h' : Hand} {i docNo parentNo : ℕ} {e : RecvDocMutable} {doc : RecvDoc} {f : SegFrame}

lemma exists_recv (hpos : 0 < s.recvTable.length) (docNo : ℕ) : ∃ e, s.recvTable[s.recvIdx docNo]? = some e :=
  ⟨_, List.getElem?_eq_getElem (Nat.mod_lt _ hpos)⟩

lemma comes_channelSlot (hinv : SlotInv s h) (docNo : ℕ) : Comes (fun r : ℕ × Option OpenChannel =>
    (r.1 = docNo → s.channelOf docNo = r.2) ∧
      (¬ s.isSending docNo → ∃ e, s.recvTable[s.recvIdx docNo]? = some e ∧ e.docNo = r.1))
    (s.channelSlot docNo : Outcome ε _) := by
  unfold channelSlot
  by_cases hs : s.isSending docNo
  · obtain ⟨e, he⟩ : ∃ e, s.sendTable[s.sendIdx docNo]? = some e :=
      ⟨_, List.getElem?_eq_getElem (Nat.mod_lt _ hinv.sendPos)⟩
    rw [if_pos hs, slot, if_neg hinv.sendPos.ne', ok_bind]
    apply (comes_entryAt he).bind
    rintro e' rfl
    refine ⟨fun hno => ?_, fun hn => absurd hs hn⟩
    rw [channelOf, if_pos hs, he, Option.bind_some, if_pos hno]
  · obtain ⟨e, he⟩ := exists_recv hinv.recvPos docNo
    rw [if_neg hs]
    apply (comes_slot hinv.recvPos docNo).bind
    rintro i rfl
    apply (comes_entryAt he).bind
    rintro e' rfl
    refine ⟨fun hno => ?_, fun _ => ⟨e', he, rfl⟩⟩
    rw [channelOf, if_neg hs, he, Option.bind_some, if_pos hno]

/-- How a segment ends. After an error some documents may still be in hand, apart from those that belong there. -/
def Ended (P : Permits) (s : SessionInner T) (h h' : Hand) (r : RecvResult T) : Prop :=
  match r.1 with
  | .ok () => Moves P s h r.2 h'
  | .error _ => ∃ h'', Moves P.allowReject s h r.2 h'' ∧ h'.docs ≤ h''.docs

lemma Ended.trans {s' : SessionInner T} {h₀ : Hand} {r : RecvResult T} (hm : Moves P s h s' h₀) (hr : Ended P s' h₀ h' r) :
    Ended P s h h' r := by
  obtain ⟨(_ | ⟨⟩), s''⟩ := r
  · obtain ⟨h'', hmoves, hle⟩ := hr
    exact ⟨h'', hm.allowReject.trans hmoves, hle⟩
  · exact hm.trans hr

lemma completed_len (hlen : doc.totalRecv = doc.mem.len) (isClosed : Bool) :
    (doc.completed docNo parentNo isClosed).len = doc.totalRecv := by
  unfold RecvDoc.completed
  split
  · rename_i buf hbuf
    rw [hlen, hbuf]
    rfl
  · rfl

lemma ends_adoptLater {isClosed : Bool} (hinv : Inv s (h.take {doc.completed docNo parentNo isClosed}))
    (hS : doc.mem.Borrowed → S .unreachable) (he : s.recvTable[s.recvIdx parentNo]? = some e) (hlt : e.docNo < parentNo) :
    Ends S (fun _ => False) (Ended P s (h.take {doc.completed docNo parentNo isClosed}) h)
      (s.adoptLater docNo parentNo isClosed doc : Outcome ε _) := by
  unfold adoptLater
  apply (comes_slot hinv.recvPos parentNo).ends.bind
  rintro i rfl
  apply (comes_entryAt he).ends.bind
  rintro e' rfl
  split_ifs with hwait
  · cases hmem : doc.mem with
    | simple buf =>
      have hmove := Move.orphan (P := P) (s := s) (h := h)
        (d := ⟨buf, docNo, doc.hasSpecialParent, isClosed, doc.docLen, parentNo⟩) he hlt hwait.1 hwait.2
      rw [RecvDoc.completed, hmem]
      exact hmove.single
    | replyBuf => exact hS (by rw [hmem]; trivial)
  · exact ⟨_, .refl, Multiset.le_add_right _ _⟩

lemma ends_handOver {isClosed : Bool} (hinv : Inv s (h.take {doc.completed docNo parentNo isClosed}))
    (hlen : doc.totalRecv = doc.mem.len) (hS : doc.mem.Borrowed → S .unreachable) :
    Ends S (fun _ => False) (Ended P s (h.take {doc.completed docNo parentNo isClosed}) h)
      (s.handOver docNo parentNo isClosed doc : Outcome ε _) := by
  have hclosed : ∀ no, (¬ s.isSending parentNo → ∃ e, s.recvTable[s.recvIdx parentNo]? = some e ∧ e.docNo = no) →
      Ends S (fun _ => False) (Ended P s (h.take {doc.completed docNo parentNo isClosed}) h)
        (handOver.notOpen docNo parentNo isClosed doc s no : Outcome ε _) := by
    intro no hno
    unfold handOver.notOpen
    split_ifs with hge hs
    · have hdrop := ends_dropUnfinished (P := P) (ε := ε) hinv
      rw [completed_docNo, completed_len hlen] at hdrop
      apply hdrop.ends.bind
      intro s' hmoves
      exact hmoves
    · exact ⟨_, .refl, Multiset.le_add_right _ _⟩
    · obtain ⟨e, he, rfl⟩ := hno hs
      exact ends_adoptLater hinv hS he (not_le.mp hge)
  unfold handOver
  apply (comes_channelSlot hinv.toSlotInv parentNo).ends.bind
  rintro ⟨no, channel⟩ ⟨hopen, hno⟩
  cases channel with
  | none => exact hclosed no hno
  | some channel =>
    dsimp only
    split_ifs with heq
    · have hc := hopen heq
      unfold OpenChannel.post
      cases hmem : doc.mem with
      | simple buf =>
        have hmove := Move.post (P := P) (s := s) (h := h)
          (d := ⟨buf, docNo, doc.hasSpecialParent, isClosed, doc.docLen, parentNo⟩) hc
        rw [RecvDoc.completed, hmem]
        exact hmove.single
      | replyBuf range m =>
        rw [RecvDoc.completed, hmem]
        cases hr : channel.replyBuffer with
        | awaiting range => exact (Move.postReply hc hr).single
        | _ => exact hS (by rw [hmem]; trivial)
    · exact hclosed no hno

lemma ends_finDoc (hinv : Inv s h) (hw : P.write) (he : s.recvTable[i]? = some e) (hdoc : e.doc = .active doc)
    (hlen : doc.totalRecv = doc.mem.len) (hP : P.lend ∨ ¬ doc.mem.Borrowed) (hS : doc.mem.Borrowed → S .unreachable) :
    Ends S (fun _ => False) (Ended P s h h) (s.finDoc i e.docNo : Outcome ε _) := by
  unfold finDoc
  apply (comes_entryAt he).ends.bind
  rintro e' rfl
  rw [hdoc]
  dsimp only
  cases hparent : doc.parentNo with
  | none =>
    have hmove : Move P.allowReject s h (s.setRecv i { e' with doc := .finishing }) h := .reject hw trivial he hdoc
    exact ⟨_, hmove.single, le_rfl⟩
  | some parentNo =>
    have hmove : Move P s h _ (h.take {doc.completed e'.docNo parentNo e'.channel.isNone}) :=
      .finish hw he hdoc hlen (hP.imp id DocMem.exists_simple)
    have hcomplete : Comes (fun r : Bool × SessionInner T => r = (e'.channel.isNone,
        { s with ledger := { s.ledger with completed := s.ledger.completed ++ [e'.docNo] } }.setRecv i
          { e' with doc := .finishing, channel := e'.channel.map OpenChannel.addRef }))
        (s.completeDoc i e'.docNo { e' with doc := .finishing } : Outcome ε _) := by
      unfold completeDoc
      cases hch : e'.channel with
      | none => rfl
      | some channel =>
        have hfresh := (hinv.entry i e' he).fresh (by rw [hdoc]; rfl) channel hch
        dsimp only
        rw [hfresh, add_ok (by norm_num), ok_bind, Option.map_some, OpenChannel.addRef, hfresh]
        rfl
    apply hcomplete.ends.bind
    rintro _ rfl
    refine (ends_handOver (hmove.inv hinv) hlen hS).imp (fun _ h => h) fun r hr => .trans hmove.single hr

lemma ends_recvInto (hinv : Inv s h) (hw : P.write) (hno : e.docNo = f.docNo) (he : ∃ e₀, s.recvTable[i]? = some e₀) (hsane : doc.Sane)
    (hmoves : ∀ complete doc', doc.Took complete doc' → Moves P s h (s.setRecv i { e with doc := .active doc' }) h')
    (herr : ∃ h'', Moves P.allowReject s h (s.setRecv i e) h'' ∧ h'.docs ≤ h''.docs) (hP : P.lend ∨ ¬ doc.mem.Borrowed)
    (hS : ∀ p, doc.mem.Borrowed ∨ (p = .arith ∧ f.Overflows) → S p) :
    Ends S (fun _ => False) (Ended P s h h') (s.recvInto i e doc f : Outcome ε _) := by
  rw [recvInto]
  apply (RecvDoc.ends_recvDoc hsane hS).attempt.bind
  rintro _ (⟨⟨complete, doc'⟩, rfl, htook⟩ | ⟨_, rfl, -⟩)
  · have hm := hmoves complete doc' htook
    cases complete with
    | false => exact hm
    | true =>
      obtain ⟨e₀, he₀⟩ := he
      have hfin := ends_finDoc (ε := ε) (P := P) (S := S) (hm.inv hinv) hw (getElem?_set_of_getElem? he₀ _) rfl
        (htook.complete rfl) (by rwa [htook.borrowed]) fun hb => hS _ (.inl (htook.borrowed.mp hb))
      dsimp only
      rw [← hno]
      exact hfin.imp (fun _ h => h) fun r hr => Ended.trans hm hr
  · exact herr

lemma Ended.exists_hand {r : RecvResult T} (hr : Ended P s h h' r) (hinv : Inv s h) :
    ∃ docs claimed, Inv r.2 ⟨h'.docs + docs, claimed⟩ := by
  obtain ⟨(_ | ⟨⟩), s'⟩ := r
  · obtain ⟨⟨docs, claimed⟩, hmoves, hle⟩ := hr
    obtain ⟨docs', rfl⟩ := Multiset.le_iff_exists_add.mp hle
    exact ⟨docs', claimed, hmoves.inv hinv⟩
  · refine ⟨0, h'.claimed, ?_⟩
    rw [add_zero]
    exact Moves.inv hr hinv

lemma ends_cleanUp {X : Multiset Undelivered} {r : RecvResult T} {x : Outcome ε (SessionInner T)} (hinv : Inv s h)
    (hr : Ended P s h (h'.take X) r)
    (hx : ∀ h'', Inv r.2 (h''.take X) → Comes (fun s' => Moves P r.2 (h''.take X) s' h'') x) :
    Ends S (fun _ => False) (fun s' => Ended P s h h' (r.1, s')) x := by
  obtain ⟨(_ | ⟨⟩), s'⟩ := r
  · obtain ⟨⟨docs, claimed⟩, hmoves, hle⟩ := hr
    obtain ⟨docs', rfl⟩ := Multiset.le_iff_exists_add.mp hle
    rw [Hand.take_more] at hmoves
    refine (hx _ (hmoves.inv hinv)).ends.imp (fun _ h => h) fun s'' hmoves' => ?_
    exact ⟨_, hmoves.trans hmoves'.allowReject, Multiset.le_add_right _ _⟩
  · exact (hx h' (Moves.inv hr hinv)).ends.imp (fun _ h => h) fun s'' hmoves => Moves.trans hr hmoves

lemma setRecv_setRecv (e e' : RecvDocMutable) : (s.setRecv i e).setRecv i e' = s.setRecv i e' := by
  simp only [setRecv, List.set_set]

lemma setRecv_self (he : s.recvTable[i]? = some e) : s.setRecv i e = s := by
  rw [setRecv, set_of_getElem? he]

lemma moves_closing (he : s.recvTable[i]? = some e) (f : SegFrame) :
    ∃ c e', (if f.isClosed then e.channel else none) = c ∧ (if f.isClosed then { e with channel := none } else e) = e' ∧
      (e'.doc = e.doc ∧ e'.docNo = e.docNo) ∧ Moves P s h (s.setRecv i e') (h.take (channelHeld c)) ∧ (c = none ∨ c = e.channel) := by
  cases f.isClosed with
  | true => exact ⟨_, _, rfl, rfl, ⟨rfl, rfl⟩, (Move.closeRemote he).single, .inr rfl⟩
  | false =>
    refine ⟨_, _, rfl, rfl, ⟨rfl, rfl⟩, ?_, .inl rfl⟩
    simp only [Bool.false_eq_true, if_false, channelHeld, Hand.take_zero]
    rw [setRecv_self he]
    exact .refl

lemma not_lose (hinv : Inv s h) (he : s.recvTable[i]? = some e) {c : Option OpenChannel} (hc : c = none ∨ c = e.channel)
    {Q : Prop} (c' : OpenChannel) (len : ℕ) (reply : UnreleasedChannel) (hsome : c = some c')
    (hreply : c'.replyBuffer = .recv len reply) : Q := by
  rcases hc with rfl | rfl
  · cases hsome
  · rw [(hinv.entry i e he).reply c' hsome] at hreply
    cases hreply

lemma Moves.write_doc {e' : RecvDocMutable} {complete : Bool} {doc' : RecvDoc} (hm : Moves P s h (s.setRecv i e') h') (hw : P.write)
    (he : s.recvTable[i]? = some e) (hdoc : e'.doc = .active doc) (htook : doc.Took complete doc') :
    Moves P s h (s.setRecv i { e' with doc := .active doc' }) h' := by
  have hwrite : Move P (s.setRecv i e') h' _ _ :=
    .write hw (getElem?_set_of_getElem? he _) hdoc htook.sane htook.docLen fun ⟨m, hm⟩ =>
      DocMem.exists_simple (by rw [htook.borrowed, hm]; exact id)
  rw [setRecv_setRecv] at hwrite
  exact hm.tail hwrite

lemma ends_updateDoc (hinv : Inv s h) (hw : P.write) (hh : h.claimed = none) (he : s.recvTable[i]? = some e) (hno : e.docNo = f.docNo)
    (hP : e.Borrows → P.lend) (hS : ∀ p, e.Borrows ∨ (p = .arith ∧ f.Overflows ∧ e.doc.isActive) → S p) :
    Ends S (fun _ => False) (Ended P s h h) (s.updateDoc i e f : Outcome ε _) := by
  obtain ⟨c, e', heq, hc, he', hmoves, hcc⟩ := moves_closing (P := P) (h := h) he f
  rw [updateDoc]
  dsimp only
  rw [heq, hc]
  have hdone : ∀ x : Outcome ε (RecvResult T), Ends S (fun _ => False) (Ended P s h (h.take (channelHeld c))) x →
      Ends S (fun _ => False) (Ended P s h h) (x >>= fun r => r.2.dropClosedChannel c >>= fun s' => .ok (r.1, s')) :=
    fun x hx => hx.bind fun r hr =>
      (ends_cleanUp hinv hr fun h'' hinv' => ends_dropClosedChannel hinv' (not_lose hinv he hcc)).bind fun s' hs' => hs'
  cases hdoc : e'.doc with
  | activeReserved =>
    obtain ⟨n, hn⟩ := (hinv.entry i e he).reserved.mp (he'.1.symm.trans hdoc)
    rw [hh] at hn
    cases hn
  | active doc =>
    have hold : e.doc = .active doc := he'.1.symm.trans hdoc
    have hact : e.doc.isActive := by
      rw [hold]
      rfl
    refine hdone _ (ends_recvInto hinv hw (he'.2.trans hno) ⟨e, he⟩ ((hinv.entry i e he).sane doc hold)
      (fun complete doc' htook => hmoves.write_doc hw he hdoc htook) ⟨_, hmoves.allowReject, le_rfl⟩ ?_ fun p hp => hS p ?_)
    · by_cases hb : doc.mem.Borrowed
      · exact .inl (hP ⟨doc, hold, hb⟩)
      · exact .inr hb
    · exact hp.imp (fun hb => ⟨doc, hold, hb⟩) fun hp => ⟨hp.1, hp.2, hact⟩
  | finishing => exact hdone (.ok (.ok (), s.setRecv i e')) hmoves
  | finAck => exact hdone (.ok (.ok (), s.setRecv i e')) hmoves
  | finParentClose => exact hdone (.ok (.ok (), s.setRecv i e')) hmoves

lemma ends_updateChannel {α : Type} {R : ε → Prop} {g : OpenChannel → Outcome ε (α × OpenChannel)}
    {Q : Option α × SessionInner T → Prop} (hinv : SlotInv s h)
    (hopen : ∀ channel, s.channelOf docNo = some channel →
      Ends S R (fun r => Q (some r.1, s.setChannel docNo (some r.2))) (g channel)) (hclosed : Q (none, s)) :
    Ends S R Q (s.updateChannel docNo g) := by
  rw [updateChannel]
  apply (comes_channelSlot hinv docNo).ends.bind
  rintro ⟨no, channel⟩ ⟨hno, -⟩
  cases channel with
  | none => exact hclosed
  | some channel =>
    dsimp only
    split_ifs with heq
    · exact (hopen channel (hno heq)).bind fun r hr => hr
    · exact hclosed

lemma setChannel_self {channel : OpenChannel} (hc : s.channelOf docNo = some channel) : s.setChannel docNo (some channel) = s := by
  rcases channelOf_cases hc with ⟨e, he, -, hch, -, hset⟩ | ⟨e, he, -, hch, -, hset⟩
  · rw [hset, ← hch, setSend, set_of_getElem? he]
  · rw [hset, ← hch, setRecv_self he]

lemma getElem?_setChannel (he : s.recvTable[i]? = some e) (channel : Option OpenChannel) :
    ∃ c, (s.setChannel docNo channel).recvTable[i]? = some { e with channel := c } := by
  rw [setChannel]
  split_ifs
  · exact ⟨e.channel, he⟩
  · by_cases hi : s.recvIdx docNo = i
    · refine ⟨channel, ?_⟩
      rw [modifyRecv, hi, List.getElem?_modify_eq, he]
      rfl
    · refine ⟨e.channel, ?_⟩
      rw [modifyRecv, List.getElem?_modify_ne _ _ hi, he]

/-- The parent of a document has a reply buffer for it. -/
def Lends (s : SessionInner T) (f : SegFrame) : Prop := f.hasSpecialParent ∧ ∃ (p : ℕ) (channel : OpenChannel) (range : BufRange),
  f.parentNo = some p ∧ s.isSending p ∧ s.channelOf p = some channel ∧ channel.replyBuffer = .awaiting (some range)

lemma comes_lendBuffer (hinv : SlotInv s h) (hP : s.Lends f → P.lend) : Comes (fun r : Option BufRange × SessionInner T =>
    Moves P s h r.2 h ∧ (r.1 ≠ none → s.Lends f) ∧
      ∀ (j : ℕ) (e : RecvDocMutable), s.recvTable[j]? = some e → ∃ c, r.2.recvTable[j]? = some { e with channel := c })
    (s.lendBuffer f : Outcome ε _) := by
  have hsame : ∀ (j : ℕ) (e : RecvDocMutable), s.recvTable[j]? = some e → ∃ c, s.recvTable[j]? = some { e with channel := c } :=
    fun j e he => ⟨e.channel, he⟩
  rw [lendBuffer]
  split
  · rename_i p hspecial hparent
    apply Ends.bind (Q := fun r => Moves P s h r.2 h ∧ (r.1.join ≠ none → s.Lends f) ∧
      ∀ (j : ℕ) (e : RecvDocMutable), s.recvTable[j]? = some e → ∃ c, r.2.recvTable[j]? = some { e with channel := c })
    · refine ends_updateChannel hinv (fun channel hc => ?_) ⟨.refl, fun hn => absurd rfl hn, hsame⟩
      cases hr : channel.replyBuffer with
      | awaiting buffer =>
        cases buffer with
        | none =>
          have hself : { channel with replyBuffer := .awaiting none } = channel := by rw [← hr]
          refine ⟨?_, fun hn => absurd rfl hn, fun j e he => getElem?_setChannel he _⟩
          dsimp only [SpecialReplyState.tryIncoming]
          rw [hself, setChannel_self hc]
          exact .refl
        | some range =>
          have hlends : s.Lends f := by
            refine ⟨hspecial, p, channel, range, hparent, ?_, hc, hr⟩
            rcases channelOf_cases hc with ⟨-, -, -, -, hs, -⟩ | ⟨e, he, -, hch, -, -⟩
            · exact hs
            · rw [(hinv.entry _ e he).reply channel hch] at hr
              cases hr
          exact ⟨(Move.lend (hP hlends) hc hr).single, fun _ => hlends, fun j e he => getElem?_setChannel he _⟩
      | recv | none =>
        have hself : { channel with replyBuffer := channel.replyBuffer } = channel := rfl
        refine ⟨?_, fun hn => absurd rfl hn, fun j e he => getElem?_setChannel he _⟩
        dsimp only [SpecialReplyState.tryIncoming]
        rw [← hr, hself, setChannel_self hc]
        exact .refl
    · exact fun r hr => hr
  · exact ⟨.refl, fun hn => absurd rfl hn, hsame⟩

/-- A segment of the document that is in its slot. -/
def Updates (s : SessionInner T) (f : SegFrame) (e : RecvDocMutable) : Prop :=
  ¬ s.isSending f.docNo ∧ s.recvTable[s.recvIdx f.docNo]? = some e ∧ e.docNo = f.docNo

/-- A segment that starts a document of length `n`. -/
def Creates (s : SessionInner T) (f : SegFrame) (e : RecvDocMutable) (n : ℕ) : Prop :=
  ¬ s.isSending f.docNo ∧ s.recvTable[s.recvIdx f.docNo]? = some e ∧ e.docNo < f.docNo ∧ f.docLen = some n ∧
    s.mayClaim e f.docNo n

/-- A segment that is written into a reply buffer. -/
def UsesReplyBuffer (s : SessionInner T) (f : SegFrame) : Prop :=
  (∃ e, s.Updates f e ∧ e.Borrows) ∨ ∃ e n, s.Creates f e n ∧ s.Lends f

/-- No reply buffer is in use or on offer. -/
def heapOnly (s : SessionInner T) : Bool :=
  (s.recvTable.all fun e => match e.doc with | .active ⟨_, _, .replyBuf _ _, _, _, _⟩ => false | _ => true) &&
    s.sendTable.all fun e => e.channel.all fun c => match c.replyBuffer with | .awaiting _ => false | _ => true

lemma not_usesReplyBuffer (hs : s.heapOnly) : ¬ s.UsesReplyBuffer f := by
  rw [heapOnly, Bool.and_eq_true, List.all_eq_true, List.all_eq_true] at hs
  rintro (⟨e, ⟨-, he, -⟩, ⟨_, _, mem, _, _, _⟩, hdoc, hb⟩ | ⟨_, _, -, -, p, channel, range, -, hsend, hc, hr⟩)
  · have hrecv := hs.1 e (List.mem_of_getElem? he)
    cases mem with
    | simple => exact hb
    | replyBuf =>
      rw [hdoc] at hrecv
      exact absurd hrecv Bool.false_ne_true
  · rcases channelOf_cases hc with ⟨e, he, -, hch, -, -⟩ | ⟨-, -, -, -, hrecv, -⟩
    · have hall := hs.2 e (List.mem_of_getElem? he)
      rw [hch, Option.all_some, hr] at hall
      exact absurd hall Bool.false_ne_true
    · exact hrecv hsend

/-- A segment that is written into a document. -/
def Written (s : SessionInner T) (f : SegFrame) : Prop :=
  (∃ e doc, s.Updates f e ∧ e.doc = .active doc) ∨ ∃ e n, s.Creates f e n ∧ n < 2 ^ 63

/-- A segment that starts a document which is longer than memory can be. -/
def TooLong (s : SessionInner T) (f : SegFrame) : Prop := ∃ e n, s.Creates f e n ∧ 2 ^ 63 ≤ n

/-- The memory of a new document, with nothing in it. -/
def newDoc (f : SegFrame) (docLen : ℕ) (mem : DocMem) : RecvDoc :=
  ⟨f.hasSpecialParent, f.parentNo, mem, 0, List.replicate ((docLen + 63) / 64) 0, docLen⟩

lemma newDoc_sane {docLen : ℕ} {mem : DocMem} (hmem : ∀ m, mem = .simple m → m.length = docLen ∧ docLen < 2 ^ 63) :
    (newDoc f docLen mem).Sane := by
  refine ⟨fun m hm => (hmem m hm).1, List.length_replicate, fun m hm => (hmem m hm).2, ?_, fun _ => rfl⟩
  rw [newDoc, List.map_replicate, List.sum_replicate, show ones (0 : BitVec 64) = [] from ones_zero]
  rfl

lemma lends_of_claimSlot {docLen : ℕ} (hl : (s.claimSlot i e f docLen).Lends f) : s.Lends f := by
  obtain ⟨hspecial, p, channel, range, hp, hs, hc, hr⟩ := hl
  have hs' : s.isSending p := hs
  refine ⟨hspecial, p, channel, range, hp, hs, ?_, hr⟩
  rw [channelOf, if_pos hs] at hc
  rw [channelOf, if_pos hs']
  exact hc

lemma ends_recvNew {docLen : ℕ} {docs : Multiset Undelivered} {mem : DocMem} (hw : P.write) (hh : h.claimed = none)
    (hinv : Inv s ⟨h.docs + docs, some (i, docLen)⟩) (he : s.recvTable[i]? = some e) (hno : e.docNo = f.docNo)
    (hsane : (newDoc f docLen mem).Sane) (hborrowed : P.lend ∨ ¬ mem.Borrowed)
    (hS : ∀ p, mem.Borrowed ∨ (p = .arith ∧ f.Overflows) → S p) :
    Ends S (fun _ => False) (Ended P s ⟨h.docs + docs, some (i, docLen)⟩ (h.take docs))
      (s.recvInto i e (newDoc f docLen mem) f : Outcome ε _) := by
  refine ends_recvInto (P := P) hinv hw hno ⟨_, he⟩ hsane (fun complete doc' htook => ?_) ?_ hborrowed hS
  · have hinstall : Move P s ⟨h.docs + docs, some (i, docLen)⟩ _ ⟨h.docs + docs, none⟩ :=
      .install hw (show _ = some (_, doc'.docLen) by rw [htook.docLen]; rfl) he htook.sane
        (hborrowed.imp id fun hb => DocMem.exists_simple fun hb' => hb (htook.borrowed.mp hb'))
    rw [Hand.take, hh]
    exact hinstall.single
  · rw [setRecv_self he]
    exact ⟨_, .refl, le_rfl⟩

lemma ends_alloc {docLen : ℕ} {buffer : Option BufRange} {p : Prop} (hbuffer : buffer ≠ none → p)
    (hS : 2 ^ 63 ≤ docLen → S .capacity) :
    Ends S (fun _ => False) (fun mem : DocMem => (mem.Borrowed → p) ∧ (newDoc f docLen mem).Sane ∧ (p ∨ docLen < 2 ^ 63))
      (RecvDoc.alloc docLen buffer : Outcome ε _) := by
  cases buffer with
  | some range =>
    have hlent := hbuffer (Option.some_ne_none _)
    refine ⟨fun _ => hlent, newDoc_sane fun m hm => ?_, .inl hlent⟩
    cases hm
  | none =>
    rw [RecvDoc.alloc]
    split_ifs with hn
    · refine ⟨fun hb => absurd hb id, newDoc_sane fun m hm => ?_, .inr hn⟩
      cases hm
      exact ⟨List.length_replicate, hn⟩
    · exact hS (not_lt.mp hn)

lemma ends_fillSlot {docLen : ℕ} {orphans : List UnfinishedRecvDoc} {c : Option OpenChannel} (hw : P.write) (hh : h.claimed = none)
    (hinv : Inv s ⟨h.docs + (readyHeld orphans + channelHeld c), some (i, docLen)⟩) (he : s.recvTable[i]? = some e)
    (hno : e.docNo = f.docNo) (hlose : ∀ c' len reply, c = some c' → c'.replyBuffer = .recv len reply → P.lose)
    (hP : s.Lends f → P.lend)
    (hS : ∀ p, s.Lends f ∨ (p = .capacity ∧ 2 ^ 63 ≤ docLen) ∨ (p = .arith ∧ f.Overflows ∧ docLen < 2 ^ 63) → S p) :
    Ends S (fun _ => False) (Ended P s ⟨h.docs + (readyHeld orphans + channelHeld c), some (i, docLen)⟩ h)
      (s.fillSlot i f docLen orphans c : Outcome ε _) := by
  rw [fillSlot]
  apply (comes_lendBuffer (P := P) (f := f) hinv.toSlotInv hP).ends.bind
  rintro ⟨buffer, s'⟩ ⟨hlend, hbuffer, hslots⟩
  obtain ⟨_, he'⟩ := hslots _ _ he
  have hinv' := hlend.inv hinv
  apply (comes_entryAt he').ends.bind
  intro e' heq
  rw [← heq] at he'
  have hno' : e'.docNo = f.docNo := by rw [heq, hno]
  have hres : e'.doc = .activeReserved := (hinv'.entry i e' he').reserved.mpr ⟨docLen, rfl⟩
  dsimp only at hlend hbuffer hinv' he' ⊢
  rw [if_neg fun hassert => hassert.2 hres]
  apply (ends_alloc hbuffer fun hlong => hS _ (.inr (.inl ⟨rfl, hlong⟩))).bind
  rintro mem ⟨hmem, hsane, hlong⟩
  have hborrowed : P.lend ∨ ¬ mem.Borrowed := by
    by_cases hb : mem.Borrowed
    · exact .inl (hP (hmem hb))
    · exact .inr hb
  have hinto : Ends S (fun _ => False) (Ended P s ⟨h.docs + (readyHeld orphans + channelHeld c), some (i, docLen)⟩
      (h.take (readyHeld orphans + channelHeld c)))
      (s'.recvInto i e' (newDoc f docLen mem) f : Outcome ε _) := by
    refine (ends_recvNew (P := P) hw hh hinv' he' hno' hsane hborrowed fun p hp => hS p ?_).imp (fun _ h => h) fun r hr =>
      Ended.trans hlend hr
    rcases hp with hb | ⟨rfl, hover⟩
    · exact .inl (hmem hb)
    · exact hlong.imp id fun hn => .inr ⟨rfl, hover, hn⟩
  apply hinto.bind
  intro r hr
  rw [← bind_assoc]
  apply (ends_cleanUp hinv hr fun h'' hinv'' => ends_dropPrevious hinv'' hlose).bind
  exact fun s₂ hs₂ => hs₂

lemma createDoc_of_creates {docLen : ℕ} (hc : s.Creates f e docLen) : (s.createDoc (s.recvIdx f.docNo) e f : Outcome ε _) =
    (s.claimSlot (s.recvIdx f.docNo) e f docLen).fillSlot (s.recvIdx f.docNo) f docLen
      (if f.isClosed then e.adoptableOrphans else []) e.channel := by
  obtain ⟨-, -, -, hlen, hmay⟩ := hc
  rw [createDoc, hlen]
  dsimp only
  rw [hmay, Bool.not_true, if_neg Bool.false_ne_true]

lemma ends_createDoc {docLen : ℕ} (hinv : Inv s h) (hh : h.claimed = none) (hc : s.Creates f e docLen) (hclaim : P.claim) (hw : P.write)
    (hP : s.Lends f → P.lend)
    (hS : ∀ p, s.Lends f ∨ (p = .capacity ∧ 2 ^ 63 ≤ docLen) ∨ (p = .arith ∧ f.Overflows ∧ docLen < 2 ^ 63) → S p) :
    Ends S (fun _ => False) (Ended P s h h) (s.createDoc (s.recvIdx f.docNo) e f : Outcome ε _) := by
  obtain ⟨hs, he, hlt, -, hmay⟩ := id hc
  have hmove := Move.claim (P := P) (h := h) hclaim hh hs he hlt hmay
  rw [createDoc_of_creates hc]
  refine (ends_fillSlot (S := S) (P := P) hw hh (hmove.inv hinv) (getElem?_set_of_getElem? he _) rfl
    (not_lose hinv he (.inr rfl))
    (fun hl => hP (lends_of_claimSlot hl)) fun p hp => hS p (hp.imp_left lends_of_claimSlot)).imp
    (fun _ h => h) fun r hr => Ended.trans hmove.single hr

/-- Every segment is handled in small steps. Only a reply buffer, memory that is too long, or a segment behind the end
of the address space can stop it. -/
lemma ends_recvFrame (hinv : Inv s h) (hh : h.claimed = none) (hclaim : P.claim) (hw : P.write)
    (hP : s.UsesReplyBuffer f → P.lend)
    (hS : ∀ p, s.UsesReplyBuffer f ∨ (p = .capacity ∧ s.TooLong f) ∨ (p = .arith ∧ f.Overflows ∧ s.Written f) → S p) :
    Ends S (fun _ => False) (Ended P s h h) (s.recvFrame f : Outcome ε _) := by
  rw [recvFrame]
  split_ifs with hs
  · exact ⟨h, .refl, le_rfl⟩
  obtain ⟨e, he⟩ := exists_recv hinv.recvPos f.docNo
  apply (comes_slot hinv.recvPos f.docNo).ends.bind
  rintro i rfl
  apply (comes_entryAt he).ends.bind
  rintro e' rfl
  split_ifs with heq hlt
  · have hupdates : s.Updates f e' := ⟨hs, he, heq⟩
    refine ends_updateDoc hinv hw hh he heq (fun hb => hP (.inl ⟨e', hupdates, hb⟩)) fun p hp => hS p ?_
    rcases hp with hb | ⟨rfl, hover, hact⟩
    · exact .inl (.inl ⟨e', hupdates, hb⟩)
    · cases hdoc : e'.doc with
      | active doc => exact .inr (.inr ⟨rfl, hover, .inl ⟨e', doc, hupdates, hdoc⟩⟩)
      | activeReserved =>
        obtain ⟨n, hn⟩ := (hinv.entry _ e' he).reserved.mp hdoc
        rw [hh] at hn
        cases hn
      | _ =>
        rw [hdoc] at hact
        exact absurd hact Bool.false_ne_true
  · cases hlen : f.docLen with
    | none =>
      rw [createDoc, hlen]
      exact .refl
    | some n =>
      by_cases hmay : s.mayClaim e' f.docNo n
      · have hcreates : s.Creates f e' n := ⟨hs, he, hlt, hlen, hmay⟩
        refine ends_createDoc hinv hh hcreates hclaim hw (fun hl => hP (.inr ⟨e', n, hcreates, hl⟩)) fun p hp => hS p ?_
        rcases hp with hl | ⟨rfl, hn⟩ | ⟨rfl, hover, hn⟩
        · exact .inl (.inr ⟨e', n, hcreates, hl⟩)
        · exact .inr (.inl ⟨rfl, e', n, hcreates, hn⟩)
        · exact .inr (.inr ⟨rfl, hover, .inr ⟨e', n, hcreates, hn⟩⟩)
      · rw [createDoc, hlen]
        dsimp only
        rw [Bool.eq_false_iff.mpr hmay, Bool.not_false, if_pos rfl]
        exact ⟨h, .refl, le_rfl⟩
  · exact .refl

end SessionInner

end Pqsnet.Session
