import Pqsnet.Session.Allocation
import Pqsnet.Session.Integrity

/-! The slots of the send table keep the documents that are in them for good. -/

namespace Pqsnet.Session

open Checked Outcome PacketBuilder SessionInner

variable {T ε : Type} {s s' s'' : SessionInner T} {i docNo : ℕ} {f : SegFrame}

namespace SessionInner

/-- The documents in the send slots are left alone. -/
def Spares (s s' : SessionInner T) : Prop :=
  s'.sendTable.map (fun e => (e.docNo, e.doc)) = s.sendTable.map fun e => (e.docNo, e.doc)

namespace Spares

lemma refl (s : SessionInner T) : s.Spares s := rfl

lemma trans (h : s.Spares s') (h' : s'.Spares s'') : s.Spares s'' := Eq.trans h' h

lemma of_eq (h : s'.sendTable = s.sendTable) : s.Spares s' := by
  rw [Spares, h]

lemma setSend {e e' : SendDocMutable} (he : s.sendTable[i]? = some e) (hno : e'.docNo = e.docNo) (hdoc : e'.doc = e.doc) :
    s.Spares (s.setSend i e') := by
  rw [Spares, SessionInner.setSend, List.map_set, hno, hdoc]
  exact set_of_getElem? (by rw [List.getElem?_map, he]; rfl)

lemma setChannel {c : OpenChannel} (hc : s.channelOf docNo = some c) (x : Option OpenChannel) : s.Spares (s.setChannel docNo x) := by
  obtain ⟨e, he, -, -, -, hset⟩ | ⟨e, -, -, -, -, hset⟩ := channelOf_cases hc
  · rw [hset]
    exact setSend he rfl rfl
  · rw [hset]
    exact of_eq rfl

end Spares

end SessionInner

section Receiving

variable {e : RecvDocMutable} {doc : RecvDoc} {done : Done T}

lemma sendTable_finSection (h : (s.finSection i docNo : Outcome ε _) = .ok done) : done.session.sendTable = s.sendTable := by
  obtain ⟨x, -, h⟩ := bind_eq_ok.mp h
  split at h
  · dsimp only at h
    split at h
    · obtain ⟨⟨isClosed, s'⟩, hcomplete, h⟩ := bind_eq_ok.mp h
      cases h
      exact (sendTable_of_view (view_completeDoc hcomplete)).trans rfl
    · cases h
      rfl
  · cases h

lemma sendTable_intoSection (h : (s.intoSection i e doc f : Outcome ε _) = .ok done) : done.session.sendTable = s.sendTable := by
  obtain ⟨r, -, h⟩ := bind_eq_ok.mp h
  split at h
  · cases h
    rfl
  · exact (sendTable_finSection h).trans rfl
  · cases h
    rfl

lemma sendTable_updateSection {c : Option OpenChannel} (h : (s.updateSection i e f c : Outcome ε _) = .ok done) :
    done.session.sendTable = s.sendTable := by
  rw [updateSection] at h
  split at h
  · cases h
    rfl
  · obtain ⟨inner, hinto, h⟩ := bind_eq_ok.mp h
    cases h
    exact (sendTable_intoSection hinto).trans rfl
  · cases h
    rfl

lemma sendTable_fillSection {docLen : ℕ} {buffer : Option BufRange} (h : (s.fillSection f docLen buffer : Outcome ε _) = .ok done) :
    done.session.sendTable = s.sendTable := by
  obtain ⟨k, -, h⟩ := bind_eq_ok.mp h
  obtain ⟨x, -, h⟩ := bind_eq_ok.mp h
  split_ifs at h
  · cases h
  obtain ⟨mem, -, h⟩ := bind_eq_ok.mp h
  exact sendTable_intoSection h

lemma sendTable_createSection (h : (s.createSection i e f : Outcome ε _) = .ok done) : done.session.sendTable = s.sendTable := by
  rw [createSection] at h
  split at h
  · cases h
    rfl
  split at h
  · cases h
    rfl
  dsimp only at h
  split at h
  · cases h
    rfl
  · obtain ⟨inner, hfill, h⟩ := bind_eq_ok.mp h
    cases h
    exact (sendTable_fillSection hfill).trans rfl

lemma sendTable_segSection (h : (s.segSection f : Outcome ε _) = .ok done) : done.session.sendTable = s.sendTable := by
  rw [segSection] at h
  split at h
  · cases h
    rfl
  obtain ⟨k, -, h⟩ := bind_eq_ok.mp h
  obtain ⟨x, -, h⟩ := bind_eq_ok.mp h
  split at h
  · exact sendTable_updateSection h
  · split at h
    · exact sendTable_createSection h
    · cases h
      rfl

lemma sendTable_waitSection {c : Option OpenChannel} (h : (s.waitSection f c : Outcome ε _) = .ok done) :
    done.session.sendTable = s.sendTable := by
  obtain ⟨k, -, h⟩ := bind_eq_ok.mp h
  obtain ⟨x, -, h⟩ := bind_eq_ok.mp h
  exact sendTable_updateSection h

lemma sendTable_dropRound {docLen : ℕ} {pushed : List (ℕ × ℕ)} (h : (s.dropRound docNo docLen : Outcome ε _) = .ok (pushed, s')) :
    s'.sendTable = s.sendTable := by
  rw [dropRound] at h
  dsimp only at h
  obtain ⟨k, -, h⟩ := bind_eq_ok.mp h
  obtain ⟨x, -, h⟩ := bind_eq_ok.mp h
  split_ifs at h
  · cases h
  · split at h <;> (cases h; rfl)
  · cases h
    rfl

lemma spares_updateChannel {α : Type} {g : OpenChannel → Outcome ε (α × OpenChannel)} {r : Option α}
    (h : s.updateChannel docNo g = .ok (r, s')) : s.Spares s' := by
  obtain ⟨c, a, c', hc, -, -, rfl⟩ | ⟨-, -, rfl⟩ := updateChannel_eq_ok h
  · exact .setChannel hc _
  · exact .refl _

lemma spares_lendBuffer {buffer : Option BufRange} (h : (s.lendBuffer f : Outcome ε _) = .ok (buffer, s')) : s.Spares s' := by
  rw [lendBuffer] at h
  split at h
  · obtain ⟨⟨r, s''⟩, hupdate, h⟩ := bind_eq_ok.mp h
    obtain ⟨-, rfl⟩ := Prod.mk.inj (ok_inj.mp h)
    exact spares_updateChannel hupdate
  · obtain ⟨-, rfl⟩ := Prod.mk.inj (ok_inj.mp h)
    exact .refl _

lemma spares_handOverSection {parentNo : ℕ} {isClosed : Bool}
    (h : (s.handOverSection docNo parentNo isClosed doc : Outcome ε _) = .ok done) : s.Spares done.session := by
  have hnotOpen {n : ℕ} (h : (handOverSection.notOpen docNo parentNo isClosed doc s n : Outcome ε _) = .ok done) :
      s.Spares done.session := by
    rw [handOverSection.notOpen] at h
    split_ifs at h
    · cases h
      exact .refl _
    · cases h
      exact .refl _
    · obtain ⟨⟨r, s'⟩, hadopt, h⟩ := bind_eq_ok.mp h
      have htable : s'.sendTable = s.sendTable := by
        obtain ⟨k, -, hadopt⟩ := bind_eq_ok.mp hadopt
        obtain ⟨x, -, hadopt⟩ := bind_eq_ok.mp hadopt
        split_ifs at hadopt
        · split at hadopt <;> cases hadopt
          rfl
        · cases hadopt
          rfl
      cases r <;> cases h <;> exact .of_eq htable
  obtain ⟨⟨n, c⟩, hslot, h⟩ := bind_eq_ok.mp h
  cases c with
  | none => exact hnotOpen h
  | some c =>
    dsimp only at h
    split_ifs at h with hn
    · obtain ⟨c', -, h⟩ := bind_eq_ok.mp h
      have hc := channelOf_of_channelSlot hslot
      rw [if_pos hn] at hc
      cases h
      exact .setChannel hc _
    · exact hnotOpen h

end Receiving

lemma Task.spares {task : Task} {done : Done T} (h : (task.run s : Outcome ε _) = .ok done) : s.Spares done.session := by
  cases task with
  | seg f => exact .of_eq (sendTable_segSection h)
  | wait f c => exact .of_eq (sendTable_waitSection h)
  | lookUp f docLen =>
    obtain ⟨⟨buffer, s'⟩, hlend, h⟩ := bind_eq_ok.mp h
    cases h
    exact spares_lendBuffer hlend
  | fill f docLen buffer => exact .of_eq (sendTable_fillSection h)
  | handOver docNo parentNo isClosed doc => exact spares_handOverSection h
  | dropRound docNo docLen =>
    obtain ⟨⟨pushed, s'⟩, hdrop, h⟩ := bind_eq_ok.mp h
    cases h
    exact .of_eq (sendTable_dropRound hdrop)
  | abandon =>
    cases h
    exact .of_eq rfl

section Application

variable {c : Channel} {done : Done T}

lemma Channel.spares_takeReady {r : Option (Option UnfinishedRecvDoc)} (h : (c.takeReady s : Outcome ε _) = .ok (r, s')) :
    s.Spares s' := by
  obtain ⟨⟨r', s₁⟩, hupdate, h⟩ := bind_eq_ok.mp h
  refine (spares_updateChannel hupdate).trans ?_
  dsimp only at h
  split at h <;> cases h <;> exact .of_eq rfl

lemma Channel.spares_clone {c' : Channel} (h : (c.clone s : Outcome ε _) = .ok (c', s')) : s.Spares s' := by
  obtain ⟨⟨r, s₁⟩, hupdate, h⟩ := bind_eq_ok.mp h
  cases h
  exact spares_updateChannel hupdate

lemma Channel.spares_closeSection {g : OpenChannel → Outcome ε (Bool × OpenChannel)} (h : c.closeSection g s = .ok done) :
    s.Spares done.session := by
  obtain ⟨ch, close, ch', hc, -, rfl⟩ | ⟨-, rfl⟩ := closeSection_eq_ok h
  · split_ifs
    · obtain ⟨e, -, he, -, -, hmark⟩ | ⟨e, -, -, -, -, hmark⟩ := closing_cases hc
      · have hset : s.Spares (s.setSend (s.sendIdx c.docNo) { e with channel := none, needsSendClose := true }) :=
          .setSend he rfl rfl
        rw [hmark]
        exact hset
      · rw [hmark]
        exact .of_eq rfl
    · exact .setChannel hc _
  · exact .refl _

lemma SendReplyFuture.spares_pollSent {reply : Channel} {r : SendReplyFuture.Polled}
    (h : (SendReplyFuture.pollSent reply s : Outcome ε _) = .ok (r, s')) : s.Spares s' := by
  obtain ⟨⟨r', s₁⟩, hupdate, h⟩ := bind_eq_ok.mp h
  refine (spares_updateChannel hupdate).trans ?_
  obtain _ | _ | _ | _ := r' <;> cases h <;> exact .of_eq rfl

end Application

/-! A document is never taken out of its slot, and never changed. -/

/-- What a slot keeps of a document. How much of it was sent is left out. -/
def SendDoc.content (d : SendDoc) : ℕ × Bool × Bytes := (d.parentNo, d.hasSpecialParent, d.data)

namespace SessionInner

/-- The number and the content of the document in a slot. -/
def houses (s : SessionInner T) (i : ℕ) : Option (ℕ × ℕ × Bool × Bytes) :=
  s.sendTable[i]?.bind fun e => e.doc.map fun d => (e.docNo, d.content)

lemma houses_of_spares (h : s.Spares s') : s'.houses = s.houses := by
  funext i
  have hhouses (s : SessionInner T) :
      s.houses i = (s.sendTable[i]?.map fun e => (e.docNo, e.doc)).bind fun x => x.2.map fun d => (x.1, d.content) := by
    rw [houses, Option.bind_map]
    rfl
  have hi := congrArg (fun l => l[i]?) h
  simp only [List.getElem?_map] at hi
  rw [hhouses, hhouses, hi]

lemma houses_of_eq (h : s'.sendTable = s.sendTable) : s'.houses = s.houses := houses_of_spares (.of_eq h)

lemma houses_setSend {e e' : SendDocMutable} (he : s.sendTable[i]? = some e) :
    (s.setSend i e').houses = Function.update s.houses i (e'.doc.map fun d => (e'.docNo, d.content)) := by
  funext j
  by_cases hj : j = i
  · subst hj
    rw [Function.update_self, houses, setSend, getElem?_set_of_getElem? he, Option.bind_some]
  · rw [Function.update_of_ne hj, houses, setSend, List.getElem?_set_ne (Ne.symm hj)]
    rfl

lemma houses_setSend_self {e e' : SendDocMutable} (he : s.sendTable[i]? = some e)
    (h : (e'.doc.map fun d => (e'.docNo, d.content)) = e.doc.map fun d => (e.docNo, d.content)) : (s.setSend i e').houses = s.houses := by
  have hi : s.houses i = e.doc.map fun d => (e.docNo, d.content) := by rw [houses, he, Option.bind_some]
  rw [houses_setSend he, h, ← hi, Function.update_eq_self]

end SessionInner

lemma Segment.tryNew_content {doc doc' : SendDoc} {isClosed : Bool} {cap : ℕ} {seg : Segment}
    (h : (tryNew docNo doc isClosed cap : Outcome ε _) = .ok (.ok (seg, doc'))) : doc'.content = doc.content := by
  rw [tryNew] at h
  dsimp only at h
  generalize 1 + varu64Len docNo + (if !doc.hasBeenAcked && doc.hasSpecialParent then varu64Len doc.parentNo else 0) = n at h
  split_ifs at h with hdone hzero hroom
  · cases h
  · cases h
    rfl
  · obtain ⟨_, _, -, -, rfl, -⟩ := tryPart_ok (not_le.mp hdone) h
    rfl
  · obtain ⟨_, _, -, -, rfl, -⟩ := tryPart_ok (not_le.mp hdone) h
    rfl

section Pass

variable {tx : Tx T} {e : SendDocMutable}

/-- A pass that changes no document. -/
abbrev Settles (tx : Tx T) (x : Outcome (Sent T) (Tx T)) : Prop := Leads (fun s _ => s.houses = tx.session.houses) x

lemma settles_sendSeg {seg : Segment} {doc doc' : SendDoc} (he : tx.session.sendTable[i]? = some e) (hdoc : e.doc = some doc)
    (hcontent : doc'.content = doc.content) : Settles tx (sendSeg tx i e seg doc') := by
  rw [sendSeg]
  refine leads_appendSeg fun _ _ => houses_setSend_self he ?_
  rw [hdoc, Option.map_some, Option.map_some, hcontent]

lemma settles_sendClose {variant : UInt8} (he : tx.session.sendTable[i]? = some e) : Settles tx (sendClose tx i docNo e variant) := by
  rw [sendClose]
  split_ifs
  · exact leads_appendControl fun _ _ => houses_setSend_self he rfl
  · exact rfl

lemma settles_sendRetry : Settles tx (sendRetry tx i docNo) := by
  rw [sendRetry]
  apply (ends_entryAt trivial).bind
  intro e he
  split
  · rename_i doc hdoc
    apply (ends_remainingCap fun _ _ => trivial).bind
    intro cap _
    apply (Segment.ends_tryNew fun _ _ => trivial).and_eq.bind
    rintro (_ | ⟨seg, doc'⟩) ⟨-, hnew⟩
    · exact rfl
    · exact settles_sendSeg he hdoc (Segment.tryNew_content hnew)
  · exact settles_sendClose he

lemma settles_sendSending : Settles tx (sendSending tx docNo) := by
  rw [sendSending]
  apply (ends_slot trivial).bind
  rintro i rfl
  apply (ends_entryAt trivial).bind
  intro e he
  split
  · exact rfl
  split
  · rename_i doc hdoc
    apply (ends_remainingCap fun _ _ => trivial).bind
    intro cap _
    apply (Segment.ends_tryNew fun _ _ => trivial).and_eq.bind
    rintro ((_ | _) | ⟨seg, doc'⟩) ⟨-, hnew⟩
    · exact settles_sendClose he
    · apply leads_emit.bind_imp
      · rintro out ⟨hs, -⟩
        rw [hs]
        exact houses_of_eq rfl
      · rintro tx' ⟨hs, -⟩
        rw [← hs]
        exact settles_sendRetry
    · exact settles_sendSeg he hdoc (Segment.tryNew_content hnew)
  · exact settles_sendClose he

lemma settles_sendDoc : Settles tx (sendDoc tx docNo) := by
  rw [sendDoc]
  split_ifs
  · exact settles_sendSending
  · rw [sendReceiving]
    apply (ends_slot trivial).bind
    rintro i rfl
    apply (ends_entryAt trivial).bind
    intro e he
    split
    · exact rfl
    · exact leads_appendControl (Q := fun s _ => s.houses = tx.session.houses) fun _ _ => houses_of_eq rfl

end Pass

/-- A document was put into a slot that was free, with its own number for the number of its parent. -/
def SessionInner.Stores (s s' : SessionInner T) (docNo : ℕ) (special : Bool) (doc : Bytes) : Prop :=
  s.houses (s.sendIdx docNo) = none ∧ s'.houses = Function.update s.houses (s.sendIdx docNo) (some (docNo, docNo, special, doc))

namespace Call

variable {call : Call} {next : Next}

lemma stores (h : (call.step s : Outcome ε _) = .ok (.inr (.ok docNo), s')) : s.Stores s' docNo call.hasSpecialParent call.doc := by
  cases accessed h with
  | @take _ e hp he hfree =>
    have hdoc : e.doc = none := by simpa using (not_or.mp hfree).2
    refine ⟨?_, houses_setSend he⟩
    rw [houses, he, Option.bind_some, hdoc, Option.map_none]

lemma stores_or_eq (h : (call.step s : Outcome ε _) = .ok (next, s')) :
    s'.houses = s.houses ∨ ∃ docNo, s.Stores s' docNo call.hasSpecialParent call.doc := by
  cases accessed h with
  | enter | undo | weigh | unload | draw => exact .inl (houses_of_eq rfl)
  | refuse | accept | skip => exact .inl rfl
  | take => exact .inr ⟨_, stores h⟩

end Call

namespace Machine

variable {C : Machine T → ℕ → Prop} {m m' m₀ : Machine T} {k : ℕ} {call : Call}

lemma Step.houses (h : Step C m m') :
    m'.session.houses = m.session.houses ∨ ∃ docNo special doc, m.session.Stores m'.session docNo special doc := by
  cases h with
  | recvSeg | trySend | sendWithReplyBuffer | pollSending | dropSending => exact .inl rfl
  | run hk h => exact .inl (houses_of_spares (Task.spares h))
  | takeReady hc h => exact .inl (houses_of_spares (Channel.spares_takeReady h))
  | clone hc h => exact .inl (houses_of_spares (Channel.spares_clone h))
  | drop hc h => exact .inl (houses_of_spares (Channel.spares_closeSection h))
  | closeIf b hc h => exact .inl (houses_of_spares (Channel.spares_closeSection h))
  | dropSent hf hs hC h => exact .inl (houses_of_spares (Channel.spares_closeSection h))
  | @pollSent fut reply r s hf hs h =>
    have hs' := houses_of_spares (SendReplyFuture.spares_pollSent h)
    cases r <;> exact .inl hs'
  | send hk h =>
    rw [session_advance]
    exact (Call.stores_or_eq h).imp_right fun ⟨docNo, hs⟩ => ⟨docNo, _, _, hs⟩
  | @sendDoc tx tx' docNo htx h =>
    have hleads : Settles tx (SessionInner.sendDoc tx docNo) := settles_sendDoc
    rw [h, Settles, htx] at hleads
    exact .inl hleads
  | @lastDoc tx out docNo htx h =>
    have hleads : Settles tx (SessionInner.sendDoc tx docNo) := settles_sendDoc
    rw [h, Settles, htx] at hleads
    exact .inl hleads
  | @sendRetry tx tx' docNo htx h =>
    have hleads : Settles tx (SessionInner.sendRetry tx (m.session.sendIdx docNo) docNo) := settles_sendRetry
    rw [h, Settles, htx] at hleads
    exact .inl hleads
  | @lastRetry tx out docNo htx h =>
    have hleads : Settles tx (SessionInner.sendRetry tx (m.session.sendIdx docNo) docNo) := settles_sendRetry
    rw [h, Settles, htx] at hleads
    exact .inl hleads

lemma Step.retains {x : ℕ × ℕ × Bool × Bytes} (h : Step C m m') (hx : m.session.houses i = some x) : m'.session.houses i = some x := by
  obtain heq | ⟨_, _, _, hfree, hnew⟩ := h.houses
  · rwa [heq]
  · rw [hnew, Function.update_of_ne, hx]
    rintro rfl
    cases hx.symm.trans hfree

lemma Run.retains {x : ℕ × ℕ × Bool × Bytes} (h : Run C m m') (hx : m.session.houses i = some x) : m'.session.houses i = some x := by
  induction h with
  | refl => exact hx
  | tail _ hstep ih => exact hstep.retains ih

lemma given_le (hrec : m.Recorded) : m.given.length ≤ m.session.slotDocs.countP (·.2) := by
  have hsub : m.given ⊆ (m.session.slotDocs.filter (·.2)).map Prod.fst := by
    intro docNo hdocNo
    obtain ⟨e, he, hno, hdoc⟩ := hrec.given docNo hdocNo
    refine List.mem_map.mpr ⟨(e.docNo, true), List.mem_filter.mpr ⟨?_, rfl⟩, hno⟩
    exact List.mem_map.mpr ⟨e, List.mem_of_getElem? he, by rw [hdoc]⟩
  have hle := (List.subperm_of_subset hrec.nodup hsub).length_le
  rwa [List.length_map, ← List.countP_eq_length_filter] at hle

lemma Run.sendTable_length (h : Run C m₀ m) (hm₀ : m₀.Sound) : m.session.sendTable.length = m₀.session.sendTable.length :=
  Run.keeps (Q := fun s => s.sendTable.length = m₀.session.sendTable.length) h hm₀ (fun hc hq => hc.shape.2.2.trans hq) rfl

/-- A document that was accepted stays in its slot as it was given, with its own number for the number of its parent, whatever comes
after it. So a session takes one document less than its table is long, and none from then on. -/
theorem sends_permanent (hm₀ : m₀.Fresh) (hrun : Run (fun _ _ => True) m₀ m) :
    m.given.length ≤ m.session.sendTable.length - 1 ∧
    ∀ k call docNo s, m.calls[k]? = some call → (call.step m.session : Outcome Empty _) = .ok (.inr (.ok docNo), s) →
      m.given.length < m.session.sendTable.length - 1 ∧ ∀ m', Run (fun _ _ => True) (m.advance k call (.inr (.ok docNo)) s) m' →
        m'.session.houses (m'.session.sendIdx docNo) = some (docNo, docNo, call.hasSpecialParent, call.doc) := by
  have hbound {m : Machine T} (hrun : Run (fun _ _ => True) m₀ m) :
      m.given.length ≤ m₀.session.sendTable.length - 1 ∧ m.session.sendTable.length = m₀.session.sendTable.length := by
    obtain ⟨-, -, hallotted, hrecorded⟩ := Run.allocated hrun hm₀
    have hle := given_le hrecorded
    have hheld := hallotted.held
    have hlimit := hallotted.limit
    have hlen := hrun.sendTable_length hm₀.sound
    omega
  obtain ⟨hgiven, hlen⟩ := hbound hrun
  rw [hlen]
  refine ⟨hgiven, fun k call docNo s hk h => ?_⟩
  have hnext : Run (fun _ _ => True) m₀ (m.advance k call (.inr (.ok docNo)) s) := hrun.tail (.send hk h)
  refine ⟨?_, fun m' hm' => ?_⟩
  · -- the number given back is one more
    have hlast := (hbound hnext).1
    rw [given_advance, List.length_append, List.length_singleton] at hlast
    exact hlast
  · have hidx : m'.session.sendIdx docNo = m.session.sendIdx docNo := by
      rw [sendIdx_of_eq (Run.sendTable_length (hnext.trans hm') hm₀.sound), sendIdx_of_eq (hrun.sendTable_length hm₀.sound)]
    rw [hidx]
    apply Run.retains hm'
    rw [session_advance, (Call.stores h).2, Function.update_self]

theorem sends_permanent_seven : ∃ (m : Machine ℕ) (s : SessionInner ℕ), Run (fun _ _ => True) oneHandle m ∧
    (Call.step ⟨false, [7], none, .lock 1⟩ m.session : Outcome Empty _) = .ok (.inr (.ok 1), s) ∧
    m.given.length < 3 ∧ s.houses (s.sendIdx 1) = some (1, 1, false, [7]) := by
  have hroom : oneHandle.HasRoom := by
    rw [HasRoom]
    decide
  have hstart : Run (fun _ _ => True) oneHandle _ := .single (.trySend [7] (List.mem_singleton_self _) hroom)
  have hsearch := ((hstart.tail (.send (k := 0) rfl rfl)).tail (.send (k := 0) rfl rfl)).tail (.send (k := 0) rfl rfl)
  have hlock := hsearch.tail (.send (k := 0) rfl rfl)
  have hall := (sends_permanent oneHandle_fresh hlock).2 0 _ 1 _ rfl rfl
  exact ⟨_, _, hlock, rfl, hall.1, hall.2 _ .refl⟩

end Machine

namespace Machine

variable {U : Type} {C : Machine U → ℕ → Prop} {a₀ a : Machine T} {b₀ b : Machine U}

end Machine

end Pqsnet.Session
