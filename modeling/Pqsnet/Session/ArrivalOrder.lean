import Pqsnet.Session.Arrival

/-! In which order the segments of a document may come to a session. -/

namespace Pqsnet.Session

open Checked Outcome

variable {T ε : Type}

namespace SessionInner

variable {s s' : SessionInner T} {P : Permits} {h h' : Hand} {i n docNo : ℕ} {e e' : RecvDocMutable} {doc doc' : RecvDoc}
  {f : SegFrame} {fs : List SegFrame}

lemma EntryStep.doc_eq {a a' : Prop} (hstep : EntryStep P s i a a' e e') (hP : ¬ P.write) (hact : e.doc.isActive) :
    e'.doc = e.doc := by
  cases hstep with
  | channel | orphan => rfl
  | claim _ _ _ _ _ hfin => exact absurd hact (not_isActive_of_slotIsFin hfin)
  | retire _ hfin => exact absurd hact (not_isActive_of_slotIsFin hfin)
  | install hw => exact absurd hw hP
  | write hw => exact absurd hw hP
  | finish hw => exact absurd hw hP

lemma Moves.active_eq (hm : Moves P s h s' h') (hc : ¬ P.claim) (hw : ¬ P.write) (he : s.recvTable[i]? = some e)
    (hact : e.doc.isActive) : ∃ e', s'.recvTable[i]? = some e' ∧ e'.doc = e.doc ∧ e'.docNo = e.docNo := by
  refine hm.entry (Q := fun e' => e'.doc = e.doc ∧ e'.docNo = e.docNo) he ⟨rfl, rfl⟩ fun hstep ⟨hdoc, hno⟩ => ?_
  refine ⟨(hstep.doc_eq hw ?_).trans hdoc, (hstep.docNo_eq hc).trans hno⟩
  rwa [hdoc]

lemma cleanUp_active {X : Multiset Undelivered} {r : RecvResult T} {x : Outcome ε (SessionInner T)} (hinv : Inv s h)
    (hr : Ended P s h (h'.take X) r)
    (hx : ∀ h'', Inv r.2 (h''.take X) → Comes (fun s' => Moves ⟨False, False, False, False, False⟩ r.2 (h''.take X) s' h'') x) :
    ∃ s', x = .ok s' ∧ ∀ e doc, r.2.recvTable[i]? = some e → e.doc = .active doc →
      ∃ e', s'.recvTable[i]? = some e' ∧ e'.doc = .active doc ∧ e'.docNo = e.docNo := by
  obtain ⟨docs, claimed, hinv'⟩ := hr.exists_hand hinv
  rw [Hand.take_more] at hinv'
  obtain ⟨s', hs', hmoves⟩ := Comes.exists (hx _ hinv')
  refine ⟨s', hs', fun e doc he hdoc => ?_⟩
  rw [← hdoc]
  exact hmoves.active_eq id id he (by rw [hdoc]; rfl)

/-- A segment is put into `doc`, the caller gets the answer of that, and if the document is then still being received, it
stays in its slot. -/
def GoesInto (ε : Type) (s : SessionInner T) (f : SegFrame) (doc : RecvDoc) : Prop :=
  ∃ (s₁ : SessionInner T) (e₁ : RecvDocMutable) (r : RecvResult T) (s₂ : SessionInner T), (∃ e₀, s₁.recvTable[s.recvIdx f.docNo]? = some e₀) ∧ e₁.docNo = f.docNo ∧
    (s₁.recvInto (s.recvIdx f.docNo) e₁ doc f : Outcome ε _) = .ok r ∧ (s.recvFrame f : Outcome ε _) = .ok (r.1, s₂) ∧
    ∀ (e : RecvDocMutable) (doc : RecvDoc), r.2.recvTable[s.recvIdx f.docNo]? = some e → e.doc = .active doc →
      ∃ e', s₂.recvTable[s.recvIdx f.docNo]? = some e' ∧ e'.doc = .active doc ∧ e'.docNo = e.docNo

lemma Updates.goesInto (hu : s.Updates f e) (hinv : Inv s h) (hdoc : e.doc = .active doc) (hheap : ¬ doc.mem.Borrowed)
    (hover : ¬ f.Overflows) : GoesInto ε s f doc := by
  obtain ⟨hs, he, hno⟩ := hu
  obtain ⟨c, e', heq, hc, he', hmoves, hcc⟩ := moves_closing (P := ⟨True, True, True, True, True⟩) (h := h) he f
  have hdoc' := he'.1.trans hdoc
  have hinto := ends_recvInto (ε := ε) (S := fun _ => False) hinv trivial (he'.2.trans hno) ⟨e, he⟩
    ((hinv.entry _ e he).sane doc hdoc) (fun complete doc' htook => hmoves.write_doc trivial he hdoc' htook)
    ⟨_, hmoves.allowReject, le_rfl⟩ (.inl trivial) fun p hp => hp.elim hheap fun h => hover h.2
  obtain ⟨r, hr, hended⟩ := Comes.exists hinto
  obtain ⟨s₂, hs₂, hkeeps⟩ := cleanUp_active (ε := ε) hinv hended fun h'' hinv' =>
    ends_dropClosedChannel hinv' (not_lose hinv he hcc)
  refine ⟨s, e', r, s₂, ⟨e, he⟩, he'.2.trans hno, hr, ?_, hkeeps⟩
  rw [recvFrame_eq hinv.recvPos hs he, if_pos hno, updateDoc]
  dsimp only
  rw [heq, hc, hdoc']
  dsimp only
  rw [hr, ok_bind, hs₂, ok_bind]

lemma Creates.goesInto (hc : s.Creates f e n) (hinv : Inv s h) (hh : h.claimed = none) (hlends : ¬ s.Lends f)
    (hover : ¬ f.Overflows) (hlen : n < 2 ^ 63) : GoesInto ε s f (newDoc f n (.simple (List.replicate n none))) := by
  obtain ⟨hs, he, hlt, -, hmay⟩ := id hc
  have hclaim := Move.claim (P := ⟨True, True, True, True, True⟩) (h := h) trivial hh hs he hlt hmay
  have hinv₁ := hclaim.inv hinv
  obtain ⟨⟨buffer, s₁⟩, hlend, hmoves, hbuffer, hslots⟩ := Comes.exists
    (comes_lendBuffer (ε := ε) (P := ⟨True, True, True, True, True⟩) (f := f) hinv₁.toSlotInv fun _ => trivial)
  obtain rfl : buffer = none := by
    by_contra hne
    exact hlends (lends_of_claimSlot (hbuffer hne))
  obtain ⟨e₁, he₁, hno₁, hres₁⟩ : ∃ e₁, s₁.recvTable[s.recvIdx f.docNo]? = some e₁ ∧ e₁.docNo = f.docNo ∧
      e₁.doc = .activeReserved := by
    obtain ⟨c, hc⟩ := hslots _ _ (getElem?_set_of_getElem? he _)
    exact ⟨_, hc, rfl, rfl⟩
  have hinv₂ := hmoves.inv hinv₁
  have hsane : (newDoc f n (.simple (List.replicate n none))).Sane := by
    refine newDoc_sane fun m hm => ?_
    cases hm
    exact ⟨List.length_replicate, hlen⟩
  have hinto := ends_recvNew (ε := ε) (S := fun _ => False) (P := ⟨True, True, True, True, True⟩) trivial hh hinv₂ he₁ hno₁
    hsane (.inl trivial) fun p hp => hp.elim id fun h => hover h.2
  obtain ⟨r, hr, hended⟩ := Comes.exists hinto
  obtain ⟨s₂, hs₂, hkeeps⟩ := cleanUp_active (i := s.recvIdx f.docNo) hinv₂ hended
    fun h'' hinv' => ends_dropPrevious (ε := ε) hinv' (not_lose hinv he (.inr rfl))
  obtain ⟨s₃, hs₃, hs₂⟩ := bind_eq_ok.mp hs₂
  have hentry : (entryAt s₁.recvTable (s.recvIdx f.docNo) : Outcome ε _) = .ok e₁ := by rw [entryAt, he₁]
  refine ⟨s₁, e₁, r, s₂, ⟨_, he₁⟩, hno₁, hr, ?_, hkeeps⟩
  rw [recvFrame_eq hinv.recvPos hs he, if_neg hlt.ne, if_pos hlt, createDoc_of_creates hc, fillSlot, hlend, ok_bind]
  dsimp only
  rw [hentry, ok_bind, if_neg fun hassert => hassert.2 hres₁, RecvDoc.alloc, if_pos hlen, ok_bind]
  rw [newDoc] at hr
  rw [hr, ok_bind, hs₃, ok_bind, hs₂, ok_bind]

/-- A document is being received. -/
def Receives (s : SessionInner T) (docNo : ℕ) (doc : RecvDoc) : Prop := ¬ s.isSending docNo ∧
  ∃ e : RecvDocMutable, s.recvTable[s.recvIdx docNo]? = some e ∧ e.docNo = docNo ∧ e.doc = .active doc

/-- What is answered to the segment that completes a document: a document whose parent is not known is invalid, and every
other one is handed over. -/
structure Answers (docNo : ℕ) (doc : RecvDoc) (x : Outcome ε (RecvResult T)) : Prop where
  unknown : doc.parentNo = none → ∃ s', x = .ok (.error .invalid, s')
  known : ∀ p, doc.parentNo = some p → ∃ (s₁ : SessionInner T) (isClosed : Bool) (r : RecvResult T) (s' : SessionInner T),
    (s₁.handOver docNo p isClosed doc : Outcome ε _) = .ok r ∧ x = .ok (r.1, s')

lemma GoesInto.more (hg : GoesInto ε s f doc) (h : doc.recvDoc f.off f.data = .ok (false, doc')) :
    ∃ s', (s.recvFrame f : Outcome ε _) = .ok (.ok (), s') ∧
      ∃ e, s'.recvTable[s.recvIdx f.docNo]? = some e ∧ e.docNo = f.docNo ∧ e.doc = .active doc' := by
  obtain ⟨s₁, e₁, r, s₂, ⟨e₀, he₀⟩, hno, hr, hframe, hkeeps⟩ := hg
  rw [recvInto, h] at hr
  cases hr
  obtain ⟨e', he', hdoc', hno'⟩ := hkeeps _ doc' (getElem?_set_of_getElem? he₀ _) rfl
  exact ⟨s₂, hframe, e', he', hno'.trans hno, hdoc'⟩

lemma GoesInto.last (hg : GoesInto ε s f doc) (h : doc.recvDoc f.off f.data = .ok (true, doc')) :
    Answers f.docNo doc' (s.recvFrame f : Outcome ε _) := by
  obtain ⟨s₁, e₁, r, s₂, ⟨e₀, he₀⟩, hno, hr, hframe, -⟩ := hg
  have hentry := getElem?_set_of_getElem? he₀ { e₁ with doc := .active doc' }
  rw [recvInto, h] at hr
  replace hr : (finDoc _ _ _ : Outcome ε _) = .ok r := hr
  rw [finDoc, entryAt, setRecv, hentry] at hr
  replace hr := (ok_bind _ _).symm.trans hr
  dsimp only at hr
  refine ⟨fun hparent => ?_, fun p hparent => ?_⟩
  · rw [hparent] at hr
    cases hr
    exact ⟨s₂, hframe⟩
  · rw [hparent] at hr
    obtain ⟨⟨isClosed, s₃⟩, -, hhand⟩ := bind_eq_ok.mp hr
    exact ⟨s₃, isClosed, r, s₂, hhand, hframe⟩

lemma Moves.recvIdx_eq (hm : Moves P s h s' h') (docNo : ℕ) :
    s'.isSending docNo = s.isSending docNo ∧ s'.recvIdx docNo = s.recvIdx docNo := by
  induction hm with
  | refl => exact ⟨rfl, rfl⟩
  | tail _ hmove ih =>
    have hstepped := hmove.stepped
    rw [← ih.1, ← ih.2, isSending, isSending, recvIdx, recvIdx, hstepped.isInitiator, hstepped.recvLength]
    exact ⟨rfl, rfl⟩

/-- Segments that come one after another, up to the first one that is invalid. -/
def recvAll : List SegFrame → SessionInner T → Outcome ε (RecvResult T)
  | [], s => .ok (.ok (), s)
  | f :: fs, s => do
    match ← s.recvFrame f with
    | (.ok (), s) => recvAll fs s
    | (.error e, s) => .ok (.error e, s)

lemma GoesInto.recvAll_cons (hg : GoesInto ε s f doc) (hinv : Inv s h) (hh : h.claimed = none) (hs : ¬ s.isSending f.docNo)
    (hr : doc.recvDoc f.off f.data = .ok (false, doc')) :
    ∃ s', (recvAll (f :: fs) s : Outcome ε _) = recvAll fs s' ∧ Inv s' h ∧ s'.Receives f.docNo doc' := by
  obtain ⟨s', hframe, e, he, hno, hdoc⟩ := hg.more hr
  have hmoves : Moves ⟨True, True, True, True, True⟩ s h s' h :=
    (ends_recvFrame (S := fun _ => True) hinv hh trivial trivial (fun _ => trivial) fun _ _ => trivial).ok hframe
  obtain ⟨hsend, hidx⟩ := hmoves.recvIdx_eq f.docNo
  refine ⟨s', ?_, hmoves.inv hinv, by rwa [hsend], e, by rwa [hidx], hno, hdoc⟩
  rw [recvAll, hframe]
  rfl

lemma GoesInto.recvAll_last (hg : GoesInto ε s f doc) (hr : doc.recvDoc f.off f.data = .ok (true, doc')) :
    Answers f.docNo doc' (recvAll [f] s : Outcome ε _) := by
  have hframe := hg.last hr
  have hone : ∀ r : RecvResult T, (s.recvFrame f : Outcome ε _) = .ok r → (recvAll [f] s : Outcome ε _) = .ok r := by
    rintro ⟨(_ | ⟨⟩), s'⟩ h <;> rw [recvAll, h] <;> rfl
  refine ⟨fun hparent => (hframe.unknown hparent).imp fun s' h => hone _ h, fun p hparent => ?_⟩
  obtain ⟨s₁, isClosed, r, s', hhand, h⟩ := hframe.known p hparent
  exact ⟨s₁, isClosed, r, s', hhand, hone _ h⟩

lemma Receives.recvAll (hfill : doc.Fills fs doc') (hr : s.Receives docNo doc) (hinv : Inv s h) (hh : h.claimed = none)
    (hheap : ¬ doc.mem.Borrowed) (hno : ∀ f ∈ fs, f.docNo = docNo ∧ ¬ f.Overflows) :
    Answers docNo doc' (recvAll fs s : Outcome ε _) := by
  induction hfill generalizing s with
  | last hf =>
    obtain ⟨rfl, hover⟩ := hno _ (List.mem_singleton_self _)
    obtain ⟨hs, e, he, hno, hdoc⟩ := hr
    exact (Updates.goesInto ⟨hs, he, hno⟩ hinv hdoc hheap hover).recvAll_last hf
  | more hf _ ih =>
    obtain ⟨rfl, hover⟩ := hno _ List.mem_cons_self
    obtain ⟨hs, e, he, hnum, hdoc⟩ := hr
    have htook := (RecvDoc.ends_recvDoc (S := fun _ => True) ((hinv.entry _ e he).sane _ hdoc) fun _ _ => trivial).ok hf
    obtain ⟨s', heq, hinv', hr'⟩ := (Updates.goesInto ⟨hs, he, hnum⟩ hinv hdoc hheap hover).recvAll_cons hinv hh hs hf
    rw [heq]
    exact ih hr' hinv' (fun hb => hheap (htook.borrowed.mp hb)) fun f hf => hno f (List.mem_cons_of_mem _ hf)

lemma Creates.recvAll (hc : s.Creates f e n) (hfill : (newDoc f n (.simple (List.replicate n none))).Fills (f :: fs) doc')
    (hinv : Inv s h) (hh : h.claimed = none) (hlends : ¬ s.Lends f) (hlen : n < 2 ^ 63)
    (hno : ∀ g ∈ f :: fs, g.docNo = f.docNo ∧ ¬ g.Overflows) : Answers f.docNo doc' (recvAll (f :: fs) s : Outcome ε _) := by
  have hg := hc.goesInto (ε := ε) hinv hh hlends (hno f List.mem_cons_self).2 hlen
  cases hfill with
  | last hf => exact hg.recvAll_last hf
  | more hf hrest =>
    have htook := (RecvDoc.ends_recvDoc (S := fun _ => True) (newDoc_sane fun m hm => ?_) fun _ _ => trivial).ok hf
    swap
    · cases hm
      exact ⟨List.length_replicate, hlen⟩
    obtain ⟨s', heq, hinv', hr'⟩ := hg.recvAll_cons hinv hh hc.1 hf
    rw [heq]
    exact hr'.recvAll hrest hinv' hh (fun hb => htook.borrowed.mp hb) fun g hg => hno g (List.mem_cons_of_mem _ hg)

end SessionInner

namespace World

open SessionInner

variable [LT T] [DecidableLT T] {docNo : ℕ} {d : SendDoc} {segs : List Segment} {f : SegFrame} {fs : List SegFrame} {doc : RecvDoc}
  {buffer : Option BufRange} {mem : DocMem}

/-- A document is cut into segments, and they come in any order, any number of times, until the receiver has every byte.
What it then has is the document if and only if no reply buffer is used and the segment that came first says who the
parent is. If it does not say it, then the last segment is taken for an invalid one, in every state of a session that
can be reached; if it does, the document is handed over to the parent. -/
theorem arrival_order_iff (hcut : Segment.Segmented docNo d segs) (hacked : d.hasBeenAcked = false)
    (hfs : ∀ g ∈ f :: fs, ∃ seg ∈ segs, seg.received = g)
    (hmem : (RecvDoc.alloc d.data.length buffer : Outcome RecvError _) = .ok mem)
    (hfill : (newDoc f d.data.length mem).Fills (f :: fs) doc) :
    (doc.Faithful d ↔ buffer = none ∧ (f.isFirst ∨ d.hasSpecialParent)) ∧
    ∀ (w : World T) (e : RecvDocMutable) (n : ℕ), w.Reachable → w.session.Creates f e n → ¬ w.session.Lends f → buffer = none →
      (¬ (f.isFirst ∨ d.hasSpecialParent) → ∃ s', (recvAll (f :: fs) w.session : Outcome ε _) = .ok (.error .invalid, s')) ∧
      (f.isFirst ∨ d.hasSpecialParent → ∃ (s₁ : SessionInner T) (isClosed : Bool) (r : RecvResult T) (s' : SessionInner T),
        (s₁.handOver docNo d.parentNo isClosed doc : Outcome ε _) = .ok r ∧
        (recvAll (f :: fs) w.session : Outcome ε _) = .ok (r.1, s')) := by
  have hpieces : ∀ g ∈ f :: fs, g.PieceOf docNo d := by
    intro g hg
    obtain ⟨seg, hseg, rfl⟩ := hfs g hg
    exact hcut.piece hacked seg hseg
  have hf := hpieces f List.mem_cons_self
  refine ⟨hfill.faithful_iff hmem hpieces, fun w e n hw hc hlends hbuffer => ?_⟩
  subst hbuffer
  rw [RecvDoc.alloc] at hmem
  by_cases hlen : d.data.length < 2 ^ 63
  swap
  · rw [if_neg hlen] at hmem
    cases hmem
  rw [if_pos hlen] at hmem
  cases hmem
  obtain rfl : d.data.length = n := Option.some.inj (hf.docLen.symm.trans hc.2.2.2.1)
  have hanswers := hc.recvAll (ε := ε) hfill hw.ok.session rfl hlends hlen fun g hg =>
    ⟨(hpieces g hg).docNo.trans hf.docNo.symm, fun hover => absurd hover.2 (by have := (hpieces g hg).bound; omega)⟩
  have hparent : doc.parentNo = if d.hasSpecialParent || f.isFirst then some d.parentNo else none :=
    hfill.header.1.trans hf.parentNo
  rw [hf.docNo] at hanswers
  refine ⟨fun hunknown => hanswers.unknown ?_, fun hknown => hanswers.known _ ?_⟩
  · rw [hparent, if_neg]
    rwa [Bool.or_eq_true, or_comm]
  · rw [hparent, if_pos]
    rwa [Bool.or_eq_true, or_comm]

/-- A document that is sent in two segments. -/
def twoSegments : SendDoc := ⟨0, false, false, 0, List.replicate 18 7⟩

def firstSegment : Segment := ⟨0x14, 4, 2, 18, 0, 0, List.replicate 16 7, none⟩

def secondSegment : Segment := ⟨0x10, 4, 2, 18, 0, 16, [7, 7], none⟩

lemma segmented_twoSegments : Segment.Segmented 2 twoSegments [firstSegment, secondSegment] := by
  have hfirst : (Segment.tryNew 2 twoSegments false 20 : Outcome Unit _) =
      .ok (.ok (firstSegment, { twoSegments with nextSegOff := 16 })) := by rfl
  have hsecond : (Segment.tryNew 2 { twoSegments with nextSegOff := 16 } false 20 : Outcome Unit _) =
      .ok (.ok (secondSegment, { twoSegments with nextSegOff := 18 })) := by rfl
  exact .cons hfirst (.cons hsecond .nil)

/-- The two segments one after the other are the document, and the other way round they end the session. -/
theorem not_any_order_twoSegments : oneChannel.Initial ∧ Segment.Segmented 2 twoSegments [firstSegment, secondSegment] ∧
    (∃ s', (recvAll [firstSegment.received, secondSegment.received] oneChannel.session : Outcome Unit _) = .ok (.ok (), s') ∧
      s'.ledger.completed = [2] ∧ s'.channelOf 0 = some ⟨1, [⟨List.replicate 18 (some 7), 2, false, false, 18, 0⟩], .none⟩) ∧
    ∃ s', (recvAll [secondSegment.received, firstSegment.received] oneChannel.session : Outcome Unit _) =
      .ok (.error .invalid, s') := by
  refine ⟨oneChannel_initial, segmented_twoSegments, ?_, ?_⟩
  · obtain ⟨⟨ret, s'⟩, hrun, heval⟩ := exists_of_map (f := fun r : RecvResult ℕ => (r.1, r.2.ledger.completed, r.2.channelOf 0))
      (x := (recvAll [firstSegment.received, secondSegment.received] oneChannel.session : Outcome Unit _))
      (b := (.ok (), [2], some ⟨1, [⟨List.replicate 18 (some 7), 2, false, false, 18, 0⟩], .none⟩)) (by decide +kernel)
    simp only [Prod.mk.injEq] at heval
    obtain ⟨rfl, hdone, hchannel⟩ := heval
    exact ⟨s', hrun, hdone, hchannel⟩
  · obtain ⟨⟨ret, s'⟩, hrun, heval⟩ := exists_of_map (f := fun r : RecvResult ℕ => r.1)
      (x := (recvAll [secondSegment.received, firstSegment.received] oneChannel.session : Outcome Unit _))
      (b := .error .invalid) (by decide +kernel)
    obtain rfl : ret = _ := heval
    exact ⟨s', hrun⟩

/-- In the right order the document is handed over to its parent. -/
theorem arrival_order_twoSegments : ∃ (doc : RecvDoc) (s₁ : SessionInner ℕ) (isClosed : Bool) (r : RecvResult ℕ)
    (s' : SessionInner ℕ), doc.Faithful twoSegments ∧ (s₁.handOver 2 0 isClosed doc : Outcome Unit _) = .ok r ∧
    (recvAll [firstSegment.received, secondSegment.received] oneChannel.session : Outcome Unit _) = .ok (r.1, s') := by
  have hfill : (newDoc firstSegment.received 18 (.simple (List.replicate 18 none))).Fills
      [firstSegment.received, secondSegment.received]
      ⟨false, some 0, .simple (List.replicate 18 (some 7)), 18, [0xffffc00000000000#64], 18⟩ := by
    have hfirst : (newDoc firstSegment.received 18 (.simple (List.replicate 18 none))).recvDoc 0 (List.replicate 16 7) =
        .ok (false, ⟨false, some 0, .simple (List.replicate 16 (some 7) ++ [none, none]), 16, [0xffff000000000000#64], 18⟩) := by
      decide +kernel
    exact .more hfirst (.last (by decide +kernel))
  have hfs : ∀ g ∈ [firstSegment.received, secondSegment.received],
      ∃ seg ∈ [firstSegment, secondSegment], seg.received = g := fun g hg => List.mem_map.mp hg
  have hw : oneChannel.Reachable := ⟨_, [], oneChannel_initial, rfl⟩
  obtain ⟨hfaithful, hsession⟩ := arrival_order_iff (T := ℕ) (ε := Unit) segmented_twoSegments rfl hfs
    (show (RecvDoc.alloc 18 none : Outcome RecvError _) = _ from rfl) hfill
  obtain ⟨s₁, isClosed, r, s', hhand, hrun⟩ := (hsession oneChannel _ 18 hw
    ⟨by decide, rfl, by decide, rfl, by decide +kernel⟩ (fun hl => absurd hl.1 Bool.false_ne_true) rfl).2 (.inl rfl)
  exact ⟨_, s₁, isClosed, r, s', hfaithful.mpr ⟨rfl, .inl rfl⟩, hhand, hrun⟩

end World

end Pqsnet.Session
