import Pqsnet.Session.ArrivalOrder
import Pqsnet.Session.CascadingDrop

/-! Which slots are left reserved after a segment was handled. -/

namespace Pqsnet.Session

open Checked Outcome

variable {T ε : Type}

lemma RecvDoc.ends_recvDoc_bounds (doc : RecvDoc) (segOff : ℕ) (seg : Bytes) :
    Ends (fun _ => True) (fun _ => seg ≠ [] ∧ doc.mem.len < segOff + seg.length)
      (fun _ => seg = [] ∨ segOff + seg.length ≤ doc.mem.len) (doc.recvDoc segOff seg) := by
  unfold recvDoc
  dsimp only
  split_ifs with hempty
  · exact .inl (List.isEmpty_iff.mp hempty)
  have hne : seg ≠ [] := fun h => hempty (List.isEmpty_iff.mpr h)
  have hpos : 0 < seg.length := List.length_pos_iff.mpr hne
  by_cases h64 : segOff + seg.length < 2 ^ 64
  · rw [add_ok h64, ok_bind, sub_ok (by omega), ok_bind]
    split_ifs with hend
    · exact ⟨hne, by omega⟩
    obtain ⟨ms, hms, -⟩ := marks_eq (ε := RecvError) (show segOff ≤ segOff + seg.length - 1 by omega)
    rw [hms, ok_bind]
    apply (ends_checkOverlaps fun _ => trivial).bind
    intro r _
    apply (ends_add (Q := fun _ => True) trivial trivial).bind
    intro total _
    apply (ends_write (by omega) h64 fun _ => trivial).bind
    exact fun mem _ => .inr (by omega)
  · rw [add, if_neg h64]
    trivial

lemma RecvDoc.alloc_len {docLen : ℕ} {buffer : Option BufRange} {mem : DocMem}
    (h : (RecvDoc.alloc docLen buffer : Outcome ε _) = .ok mem) : mem.len = buffer.elim docLen BufRange.len := by
  cases buffer with
  | some range =>
    cases h
    rfl
  | none =>
    rw [RecvDoc.alloc] at h
    split_ifs at h
    · cases h
      exact List.length_replicate
    · exact absurd h (panic_ne_ok _ _)

namespace SessionInner

variable {s s' s₁ : SessionInner T} {p q : ℕ → Prop} {i n docNo : ℕ} {e e' : RecvDocMutable} {doc : RecvDoc}
  {f : SegFrame}

/-- No slot is reserved. -/
def Unreserved (s : SessionInner T) : Prop := ∀ e ∈ s.recvTable, e.doc ≠ .activeReserved

/-- Only slots at these places are reserved. -/
def ReservedOnly (p : ℕ → Prop) (s : SessionInner T) : Prop :=
  ∀ j e, s.recvTable[j]? = some e → e.doc = .activeReserved → p j

lemma unreserved_iff_reservedOnly : s.Unreserved ↔ ReservedOnly (fun _ => False) s := by
  constructor
  · exact fun h j e he hres => h e (List.mem_of_getElem? he) hres
  · intro h e he hres
    obtain ⟨j, he⟩ := List.mem_iff_getElem?.mp he
    exact h j e he hres

namespace ReservedOnly

lemma mono (h : ReservedOnly p s) (hpq : ∀ j, p j → q j) : ReservedOnly q s :=
  fun j e he hres => hpq j (h j e he hres)

lemma setRecv (h : ReservedOnly p s) (he' : e'.doc = .activeReserved → p i) : ReservedOnly p (s.setRecv i e') := by
  intro j e he hres
  rcases getElem?_set_cases he with ⟨rfl, rfl⟩ | ⟨-, he⟩
  · exact he' hres
  · exact h j e he hres

lemma release (h : ReservedOnly (· = i) s) (he' : e'.doc ≠ .activeReserved) : ReservedOnly p (s.setRecv i e') := by
  intro j e he hres
  rcases getElem?_set_cases he with ⟨rfl, rfl⟩ | ⟨hj, he⟩
  · exact absurd hres he'
  · exact absurd (h j e he hres) hj

lemma setChannel (h : ReservedOnly p s) (channel : Option OpenChannel) : ReservedOnly p (s.setChannel docNo channel) := by
  intro j e' he' hres
  cases he : s.recvTable[j]? with
  | none =>
    have hlen : (s.setChannel docNo channel).recvTable.length = s.recvTable.length := by
      rw [SessionInner.setChannel]
      split_ifs
      · rfl
      · exact List.length_modify _ _ _
    have hlt := (List.getElem?_eq_some_iff.mp he').1
    have hge := List.getElem?_eq_none_iff.mp he
    omega
  | some e =>
    obtain ⟨c, hc⟩ : ∃ c, (s.setChannel docNo channel).recvTable[j]? = some { e with channel := c } := getElem?_setChannel he channel
    obtain rfl := Option.some.inj (he'.symm.trans hc)
    exact h j e he hres

lemma dropped {visited : List (ℕ × ℕ)} (h : ReservedOnly p s) (hd : Dropped s visited s') : ReservedOnly p s' := by
  intro j e' he' hres
  obtain ⟨e, he, ⟨-, rfl⟩ | ⟨-, rfl⟩⟩ := hd.getElem?_eq he'
  · cases hres
  · exact h j e' he hres

lemma dropEach {stack : List (ℕ × ℕ)} (h : ReservedOnly p s) :
    Yields (ReservedOnly p) (SessionInner.dropEach stack s : Outcome ε _) :=
  (yields_self _).imp (fun _ h => h) fun _ hs' =>
    have ⟨_, hd, _⟩ := dropEach_dropped hs'
    h.dropped hd

lemma dropUnfinishedRecvDoc (h : ReservedOnly p s) (docNo docLen : ℕ) :
    Yields (ReservedOnly p) (s.dropUnfinishedRecvDoc docNo docLen : Outcome ε _) :=
  (yields_self _).imp (fun _ h => h) fun _ hs' =>
    have ⟨_, hd, _⟩ := dropLoop_dropped hs'
    h.dropped hd

lemma dropClosedChannel (h : ReservedOnly p s) (channel : Option OpenChannel) :
    Yields (ReservedOnly p) (s.dropClosedChannel channel : Outcome ε _) := by
  cases channel with
  | none => exact h
  | some channel => exact h.dropEach.bind fun s' hs' => hs'

lemma adoptLater (h : ReservedOnly p s) {parentNo : ℕ} {isClosed : Bool} :
    Yields (fun r : RecvResult T => ReservedOnly p r.2) (s.adoptLater docNo parentNo isClosed doc : Outcome ε _) := by
  rw [SessionInner.adoptLater]
  apply (yields_self _).bind
  intro i _
  apply (yields_self _).bind
  intro entry hentry
  have he := entryAt_eq_ok hentry
  split_ifs
  · split
    · exact h.setRecv fun hres => h _ _ he hres
    · trivial
  · exact h

lemma handOver (h : ReservedOnly p s) {parentNo : ℕ} {isClosed : Bool} :
    Yields (fun r : RecvResult T => ReservedOnly p r.2) (s.handOver docNo parentNo isClosed doc : Outcome ε _) := by
  have hclosed (no : ℕ) : Yields (fun r : RecvResult T => ReservedOnly p r.2)
      (SessionInner.handOver.notOpen docNo parentNo isClosed doc s no : Outcome ε _) := by
    rw [SessionInner.handOver.notOpen]
    split_ifs
    · exact (h.dropUnfinishedRecvDoc _ _).bind fun s' hs' => hs'
    · exact h
    · exact h.adoptLater
  rw [SessionInner.handOver]
  apply (yields_self _).bind
  rintro ⟨no, channel⟩ -
  cases channel with
  | none => exact hclosed no
  | some channel =>
    dsimp only
    split_ifs
    · exact (yields_self _).bind fun channel' _ => h.setChannel _
    · exact hclosed no

lemma completeDoc (h : ReservedOnly p s) {entry : RecvDocMutable} (hentry : entry.doc ≠ .activeReserved) :
    Yields (fun r : Bool × SessionInner T => ReservedOnly p r.2) (s.completeDoc i docNo entry : Outcome ε _) := by
  have hset {e : RecvDocMutable} (he : e.doc = entry.doc) (ledger : Ledger) :
      ReservedOnly p ({ s with ledger := ledger }.setRecv i e) :=
    setRecv (s := { s with ledger := ledger }) h fun hres => absurd (he.symm.trans hres) hentry
  rw [SessionInner.completeDoc]
  cases entry.channel with
  | none => exact hset rfl _
  | some channel =>
    exact (yields_self _).bind fun refCount _ => hset (e := { entry with channel := some { channel with refCount := refCount } }) rfl _

lemma finDoc (h : ReservedOnly p s) : Yields (fun r : RecvResult T => ReservedOnly p r.2) (s.finDoc i docNo : Outcome ε _) := by
  rw [SessionInner.finDoc]
  apply (yields_self _).bind
  intro entry hentry
  split
  · split
    · exact (h.completeDoc (by exact RecvDocState.noConfusion)).bind fun r hr => hr.handOver
    · exact h.setRecv (fun hres => by cases hres)
  · trivial

lemma recvInto (h : ReservedOnly (· = i) s)
    (hrefused : e.doc = .activeReserved → ¬ (f.data ≠ [] ∧ doc.mem.len < f.off + f.data.length)) :
    Yields (fun r : RecvResult T => ReservedOnly p r.2) (s.recvInto i e doc f : Outcome ε _) := by
  rw [SessionInner.recvInto]
  apply (doc.ends_recvDoc_bounds f.off f.data).attempt.bind
  rintro r (⟨⟨complete, doc'⟩, rfl, -⟩ | ⟨x, rfl, hx⟩)
  · have hactive : ReservedOnly p (s.setRecv i { e with doc := .active doc' }) := h.release (by exact RecvDocState.noConfusion)
    cases complete with
    | false => exact hactive
    | true => exact hactive.finDoc
  · exact h.release fun hres => hrefused hres hx

lemma updateDoc (h : ReservedOnly (fun _ => False) s) (he : s.recvTable[i]? = some e) :
    Yields (fun r : RecvResult T => ReservedOnly (fun _ => False) r.2) (s.updateDoc i e f : Outcome ε _) := by
  have hnone : e.doc ≠ .activeReserved := fun hres => h i e he hres
  have hdoc (b : Bool) : (if b then { e with channel := none } else e).doc = e.doc := by
    cases b
    · rfl
    · rfl
  have hrest (r : RecvResult T) (hr : ReservedOnly (fun _ => False) r.2) (c : Option OpenChannel) :
      Yields (fun r : RecvResult T => ReservedOnly (fun _ => False) r.2)
        (r.2.dropClosedChannel c >>= fun s' => .ok (r.1, s') : Outcome ε _) :=
    (hr.dropClosedChannel c).bind fun s' hs' => hs'
  rw [SessionInner.updateDoc]
  dsimp only
  split
  · trivial
  · refine (recvInto (h.mono fun _ hj => hj.elim) ?_).bind fun r hr => hrest r hr _
    exact fun hres => absurd ((hdoc _).symm.trans hres) hnone
  · exact hrest (_, _) (h.setRecv fun hres => hnone ((hdoc _).symm.trans hres)) _

end ReservedOnly

/-- The reply buffer that the special parent of a new document has for it. -/
def offered (s : SessionInner T) (f : SegFrame) : Option BufRange :=
  if f.hasSpecialParent then f.parentNo.bind fun p => (s.channelOf p).bind fun c => c.replyBuffer.tryIncoming.1 else none

lemma lendBuffer_eq_ok {buffer : Option BufRange} (h : (s.lendBuffer f : Outcome ε _) = .ok (buffer, s')) :
    buffer = s.offered f ∧ (s' = s ∨ ∃ (docNo : ℕ) (c : OpenChannel), s' = s.setChannel docNo (some c)) := by
  unfold lendBuffer at h
  split at h
  · rename_i parentNo hspecial hparent
    obtain ⟨⟨b, s₁⟩, hupdate, h⟩ := bind_eq_ok.mp h
    obtain ⟨rfl, rfl⟩ := Prod.mk.inj (ok_inj.mp h)
    rw [offered, if_pos hspecial, hparent, Option.bind_some]
    rcases updateChannel_eq_ok hupdate with ⟨c, a, c', hc, hg, rfl, rfl⟩ | ⟨hc, rfl, rfl⟩
    · rw [hc, Option.bind_some]
      obtain ⟨rfl, rfl⟩ := Prod.mk.inj (ok_inj.mp hg)
      exact ⟨rfl, .inr ⟨parentNo, _, rfl⟩⟩
    · rw [hc]
      exact ⟨rfl, .inl rfl⟩
  · rename_i hother
    obtain ⟨rfl, rfl⟩ := Prod.mk.inj (ok_inj.mp h)
    refine ⟨?_, .inl rfl⟩
    rw [offered]
    split_ifs with hspecial
    · cases hparent : f.parentNo with
      | none => rfl
      | some p => exact absurd hparent (hother p hspecial)
    · rfl

/-- The first segment of a document reaches beyond the memory that the document gets. -/
def RejectsFirst (s : SessionInner T) (f : SegFrame) : Prop := ∃ e n, s.Creates f e n ∧ f.data ≠ [] ∧
  ((s.claimSlot (s.recvIdx f.docNo) e f n).offered f).elim n BufRange.len < f.off + f.data.length

namespace ReservedOnly

lemma lendBuffer (h : ReservedOnly p s) : Yields (fun r : Option BufRange × SessionInner T => r.1 = s.offered f ∧ ReservedOnly p r.2)
    (s.lendBuffer f : Outcome ε _) := by
  refine (yields_self _).imp (fun _ h => h) fun r hr => ?_
  obtain ⟨hbuffer, heq | ⟨no, c, heq⟩⟩ := lendBuffer_eq_ok hr
  · rw [heq]
    exact ⟨hbuffer, h⟩
  · rw [heq]
    exact ⟨hbuffer, h.setChannel _⟩

lemma fillSlot {orphans : List UnfinishedRecvDoc} {c : Option OpenChannel} (h : ReservedOnly (· = i) s)
    (hfits : ¬ (f.data ≠ [] ∧ (s.offered f).elim n BufRange.len < f.off + f.data.length)) :
    Yields (fun r : RecvResult T => ReservedOnly (fun _ => False) r.2) (s.fillSlot i f n orphans c : Outcome ε _) := by
  rw [SessionInner.fillSlot]
  apply h.lendBuffer.bind
  rintro ⟨buffer, s₁⟩ ⟨rfl, hs₁⟩
  apply (yields_self _).bind
  intro reserved _
  dsimp only
  split_ifs
  · trivial
  · apply (yields_self _).bind
    intro mem hmem
    refine (recvInto (p := fun _ => False) hs₁ fun _ => ?_).bind fun r hr => ?_
    · rw [RecvDoc.alloc_len hmem]
      exact hfits
    · apply hr.dropEach.bind
      intro s₂ hs₂
      exact (hs₂.dropClosedChannel c).bind fun s₃ hs₃ => hs₃

lemma claimSlot (h : ReservedOnly (fun _ => False) s) : ReservedOnly (· = i) (s.claimSlot i e f n) := by
  intro j e' he' hres
  rcases getElem?_set_cases he' with ⟨hj, -⟩ | ⟨-, he'⟩
  · exact hj
  · exact (h j e' he' hres).elim

/-- A segment leaves no slot reserved unless it starts a document and is refused. -/
lemma recvFrame (h : ReservedOnly (fun _ => False) s) (hfirst : ¬ s.RejectsFirst f) :
    Yields (fun r : RecvResult T => ReservedOnly (fun _ => False) r.2) (s.recvFrame f : Outcome ε _) := by
  rw [SessionInner.recvFrame]
  split_ifs with hs
  · exact h
  apply (yields_self _).bind
  intro i hi
  apply (yields_self _).bind
  intro e he
  obtain rfl := slot_eq_ok hi
  have he' := entryAt_eq_ok he
  split_ifs with hno hlt
  · exact h.updateDoc he'
  · rw [createDoc]
    split
    · exact h
    · rename_i n hlen
      cases hmay : s.mayClaim e f.docNo n with
      | false => exact h
      | true => exact h.claimSlot.fillSlot fun hbeyond => hfirst ⟨e, n, ⟨hs, he', hlt, hlen, hmay⟩, hbeyond⟩
  · exact h

end ReservedOnly

section Refused

variable {h : Hand} {r : Except RecvError Unit}

lemma recvInto_refused {r : RecvResult T} (hbeyond : f.data ≠ [] ∧ doc.mem.len < f.off + f.data.length)
    (hr : (s.recvInto i e doc f : Outcome ε _) = .ok r) : r.2 = s.setRecv i e := by
  obtain ⟨x, hx, hr⟩ := bind_eq_ok.mp hr
  rcases attempt_eq_ok hx with ⟨a, ha, -⟩ | ⟨x, rfl⟩
  · rcases (doc.ends_recvDoc_bounds f.off f.data).ok ha with hnil | hle
    · exact absurd hnil hbeyond.1
    · exact absurd hle (not_le.mpr hbeyond.2)
  · cases hr
    rfl

/-- The slot stays reserved: nothing that is dropped afterwards is the new document. -/
lemma Creates.stays_reserved (hc : s.Creates f e n) (hinv : Inv s h) (hh : h.claimed = none)
    (hbeyond : f.data ≠ [] ∧ ((s.claimSlot (s.recvIdx f.docNo) e f n).offered f).elim n BufRange.len < f.off + f.data.length)
    (hr : (s.recvFrame f : Outcome ε _) = .ok (r, s')) :
    ∃ e', s'.recvTable[s.recvIdx f.docNo]? = some e' ∧ e'.doc = .activeReserved := by
  obtain ⟨hs, he, hlt, -, hmay⟩ := id hc
  have hinv₁ := (Move.claim (P := ⟨True, True, True, True, True⟩) (h := h) trivial hh hs he hlt hmay).inv hinv
  rw [SessionInner.recvFrame_eq hinv.recvPos hs he, if_neg hlt.ne, if_pos hlt, createDoc_of_creates hc] at hr
  obtain ⟨⟨buffer, s₁⟩, hlend, hrest⟩ := bind_eq_ok.mp hr
  obtain ⟨hmoves, -, hslots⟩ :=
    (comes_lendBuffer (P := ⟨True, True, True, True, True⟩) hinv₁.toSlotInv fun _ => trivial).ok hlend
  obtain ⟨c, he₁⟩ := hslots _ _ (getElem?_set_of_getElem? he _)
  obtain ⟨e₁, hentry, hrest⟩ := bind_eq_ok.mp hrest
  obtain rfl := Option.some.inj ((entryAt_eq_ok hentry).symm.trans he₁)
  dsimp only at hrest
  rw [if_neg fun hassert => hassert.2 rfl] at hrest
  obtain ⟨mem, hmem, hrest⟩ := bind_eq_ok.mp hrest
  obtain ⟨⟨ret, s₂⟩, hinto, hrest⟩ := bind_eq_ok.mp hrest
  have hs₂ : s₂ = s₁ := by
    refine (recvInto_refused ⟨hbeyond.1, ?_⟩ hinto).trans (setRecv_self he₁)
    rw [RecvDoc.alloc_len hmem, (lendBuffer_eq_ok hlend).1]
    exact hbeyond.2
  obtain ⟨s₃, hdrop, hrest⟩ := bind_eq_ok.mp hrest
  obtain ⟨s₄, hclose, hrest⟩ := bind_eq_ok.mp hrest
  obtain ⟨-, rfl⟩ := Prod.mk.inj (ok_inj.mp hrest)
  rw [hs₂] at hdrop
  have hinv₂ : Inv s₁ (Hand.take ⟨h.docs, some (s.recvIdx f.docNo, n)⟩
    (readyHeld (if f.isClosed then e.adoptableOrphans else []) + channelHeld e.channel)) := hmoves.inv hinv₁
  have hdropped := (ends_dropPrevious (P := ⟨False, False, False, False, False⟩) hinv₂ (not_lose hinv he (.inr rfl))).ok
    (bind_eq_ok.mpr ⟨s₃, hdrop, hclose⟩)
  obtain ⟨e', he', hdoc, -⟩ := hdropped.active_eq id id he₁ rfl
  exact ⟨e', he', hdoc⟩

lemma recvFrame_ignored (hu : ∀ e, ¬ s.Updates f e) (hc : ∀ e n, ¬ s.Creates f e n)
    (hr : (s.recvFrame f : Outcome ε _) = .ok (r, s')) : s' = s := by
  rw [recvFrame] at hr
  split_ifs at hr with hs
  · cases hr
    rfl
  obtain ⟨i, hi, hrest⟩ := bind_eq_ok.mp hr
  obtain ⟨e, he, hrest⟩ := bind_eq_ok.mp hrest
  obtain rfl := slot_eq_ok hi
  have he' := entryAt_eq_ok he
  split_ifs at hrest with hno hlt
  · exact absurd ⟨hs, he', hno⟩ (hu e)
  · rw [createDoc] at hrest
    split at hrest
    · cases hrest
      rfl
    · rename_i n hlen
      cases hmay : s.mayClaim e f.docNo n with
      | false =>
        rw [hmay] at hrest
        cases hrest
        rfl
      | true => exact absurd ⟨hs, he', hlt, hlen, hmay⟩ (hc e n)
  · cases hrest
    rfl

end Refused

section Segments

variable {packet : Bytes} {variant : UInt8} {r : Option ℕ}

/-- The segment is the first of its document, and it is refused. -/
def RefusesFirst (s : SessionInner T) (packet : Bytes) (variant : UInt8) (i : ℕ) : Prop :=
  ∃ f j, SegFrame.parse s.debugAssertions variant packet i = .ok (f, j) ∧ s.RejectsFirst f

/-- The segment belongs to the document in its slot, or takes the slot over. -/
def Accesses (s : SessionInner T) (packet : Bytes) (variant : UInt8) (i : ℕ) : Prop :=
  ∃ f j, SegFrame.parse s.debugAssertions variant packet i = .ok (f, j) ∧ ((∃ e, s.Updates f e) ∨ ∃ e n, s.Creates f e n)

lemma recvSeg_cases (h : (recvSeg packet s variant i : Outcome ε _) = .ok (r, s')) :
    ((∀ f j, SegFrame.parse s.debugAssertions variant packet i ≠ .ok (f, j)) ∧ s' = s) ∨
      ∃ f j ret, SegFrame.parse s.debugAssertions variant packet i = .ok (f, j) ∧ (s.recvFrame f : Outcome ε _) = .ok (ret, s') := by
  obtain ⟨x, hx, hrest⟩ := bind_eq_ok.mp h
  rcases hparse : SegFrame.parse s.debugAssertions variant packet i with (p | e) | ⟨f, j⟩
  · rw [hparse] at hx
    cases hx
  · rw [hparse] at hx
    cases hx
    cases hrest
    exact .inl ⟨fun f j heq => (by cases heq), rfl⟩
  · rw [hparse] at hx
    cases hx
    obtain ⟨⟨ret, s₁⟩, hframe, hrest⟩ := bind_eq_ok.mp hrest
    refine .inr ⟨f, j, ret, rfl, ?_⟩
    cases ret with
    | ok =>
      cases hrest
      exact hframe
    | error =>
      cases hrest
      exact hframe

variable [LT T] [DecidableLT T]

/-- After a segment was handled, no slot is left reserved, unless the segment was the first of its document and was
refused. In every state that a session comes to, this one case leaves the slot reserved. What is refused earlier
changes nothing. -/
theorem unreserved_after_segment (hs : s.Unreserved) (h : (recvSeg packet s variant i : Outcome ε _) = .ok (r, s')) :
    (¬ s.RefusesFirst packet variant i → s'.Unreserved) ∧
      ((∃ w : World T, w.Reachable ∧ w.session = s) → s.RefusesFirst packet variant i → ¬ s'.Unreserved) ∧
      (¬ s.Accesses packet variant i → s' = s) := by
  rcases recvSeg_cases h with ⟨hparse, rfl⟩ | ⟨f, j, ret, hparse, hframe⟩
  · exact ⟨fun _ => hs, fun _ ⟨f, j, heq, _⟩ => absurd heq (hparse f j), fun _ => rfl⟩
  · refine ⟨fun hfirst => ?_, ?_, fun hacc => ?_⟩
    · exact unreserved_iff_reservedOnly.mpr (((unreserved_iff_reservedOnly.mp hs).recvFrame
        fun hrejects => hfirst ⟨f, j, hparse, hrejects⟩).ok hframe)
    · rintro ⟨w, hw, rfl⟩ ⟨f', j', hparse', e, n, hcreates, hbeyond⟩ hunreserved
      obtain ⟨rfl, rfl⟩ := Prod.mk.inj (ok_inj.mp (hparse.symm.trans hparse'))
      obtain ⟨e', he', hdoc⟩ := hcreates.stays_reserved hw.ok.session rfl hbeyond hframe
      exact hunreserved e' (List.mem_of_getElem? he') hdoc
    · exact recvFrame_ignored (fun e hu => hacc ⟨f, j, hparse, .inl ⟨e, hu⟩⟩)
        (fun e n hc => hacc ⟨f, j, hparse, .inr ⟨e, n, hc⟩⟩) hframe

end Segments

lemma oneChannel_unreserved : World.oneChannel.session.Unreserved := by
  intro e he
  rcases List.mem_cons.mp he with rfl | he
  · exact RecvDocState.noConfusion
  · rw [List.eq_of_mem_replicate he]
    exact RecvDocState.noConfusion

/-- The first segment of a document of two bytes. -/
theorem unreserved_after_docStart : ∃ s', (recvSeg [0x15, 2, 2, 0, 1, 7] World.oneChannel.session 0x15 1 : Outcome Empty _) = .ok (some 6, s') ∧
    s'.recvBytesTotal = 2 ∧ s'.Unreserved := by
  obtain ⟨⟨r, s'⟩, hr, heval⟩ := exists_of_map (f := fun r : Option ℕ × SessionInner ℕ => (r.1, r.2.recvBytesTotal))
    (x := (recvSeg [0x15, 2, 2, 0, 1, 7] World.oneChannel.session 0x15 1 : Outcome Empty _)) (b := (some 6, 2)) (by decide +kernel)
  obtain ⟨rfl, htotal⟩ := Prod.mk.inj heval
  refine ⟨s', hr, htotal, (unreserved_after_segment oneChannel_unreserved hr).1 ?_⟩
  rintro ⟨f, j, hparse, e, n, ⟨-, -, -, hn, -⟩, -, hlt⟩
  have hf : (SegFrame.parse World.oneChannel.session.debugAssertions 0x15 [0x15, 2, 2, 0, 1, 7] 1).toOption.map
      (fun r => (r.1.docLen, r.1.off + r.1.data.length, r.1.hasSpecialParent)) = some (some 2, 1, false) := by decide +kernel
  rw [hparse] at hf
  simp only [Except.toOption, Option.map_some, Option.some.injEq, Prod.mk.injEq] at hf
  obtain ⟨hlen, hend, hspecial⟩ := hf
  rw [offered, hspecial, if_neg Bool.false_ne_true, hend] at hlt
  obtain rfl := Option.some.inj (hlen.symm.trans hn)
  exact absurd hlt (by decide)

/-- The first segment of a document that is announced with two bytes has three. Every later segment of the document waits
for ever. -/
theorem reserved_after_long_segment : World.oneChannel.Initial ∧ World.oneChannel.session.Unreserved ∧
    ∃ s', (recvSeg [0x15, 2, 2, 0, 3, 7, 8, 9] World.oneChannel.session 0x15 1 : Outcome Empty _) = .ok (none, s') ∧
      s'.recvBytesTotal = 2 ∧ ¬ s'.Unreserved ∧
      (recvSeg [0x01, 2, 1, 1, 8] s' 0x01 1 : Outcome Empty _) = .panic .loopBound := by
  obtain ⟨⟨r, s'⟩, hr, heval⟩ := exists_of_map
    (f := fun r : Option ℕ × SessionInner ℕ =>
      (r.1, r.2.recvBytesTotal, r.2.recvTable.map fun e => decide (e.doc = RecvDocState.activeReserved),
        (recvSeg [0x01, 2, 1, 1, 8] r.2 0x01 1 : Outcome Empty _).map fun _ => ()))
    (x := (recvSeg [0x15, 2, 2, 0, 3, 7, 8, 9] World.oneChannel.session 0x15 1 : Outcome Empty _))
    (b := (none, 2, [false, true, false, false], Except.error (.panic .loopBound))) (by decide +kernel)
  simp only [Prod.mk.injEq] at heval
  obtain ⟨rfl, htotal, htable, hwaits⟩ := heval
  refine ⟨World.oneChannel_initial, oneChannel_unreserved, s', hr, htotal, fun hs => ?_, ?_⟩
  · have hmem : true ∈ s'.recvTable.map fun e => decide (e.doc = RecvDocState.activeReserved) := by
      rw [htable]
      decide
    obtain ⟨e, he, hres⟩ := List.mem_map.mp hmem
    exact hs e he (of_decide_eq_true hres)
  · rcases hx : (recvSeg [0x01, 2, 1, 1, 8] s' 0x01 1 : Outcome Empty _) with p | a
    · rw [hx] at hwaits
      exact congrArg Except.error (Except.error.inj hwaits)
    · rw [hx] at hwaits
      cases hwaits

end SessionInner

end Pqsnet.Session
