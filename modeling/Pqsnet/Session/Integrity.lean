import Pqsnet.Session.Unreachable

/-! The documents that a session hands to the application are the ones that the peer sent, and they come out of the
channels of their parents. -/

namespace Pqsnet.Session

open Checked Outcome SessionInner

variable {T ε : Type} {D : ℕ → Option SendDoc} {sent : SendDoc} {s s' : SessionInner T} {i docNo no : ℕ} {f : SegFrame}

/-- A completed document is the one that was sent under its number, as a child of document `no`. -/
def UnfinishedRecvDoc.Genuine (D : ℕ → Option SendDoc) (no : ℕ) (d : UnfinishedRecvDoc) : Prop :=
  ∃ sent ∈ D d.docNo, d.buf = sent.data.map some ∧ d.hasSpecialParent = sent.hasSpecialParent ∧ sent.parentNo = no

structure OpenChannel.Genuine (D : ℕ → Option SendDoc) (no : ℕ) (c : OpenChannel) : Prop where
  ready : ∀ d ∈ c.readyDocs, d.Genuine D no
  reply : ∀ len u, c.replyBuffer = .recv len u → ∃ sent ∈ D u.docNo, u.hasSpecialParent = sent.hasSpecialParent ∧ sent.parentNo = no

namespace RecvDoc

/-- What there is of a document so far is as it was sent. -/
structure Growing (sent : SendDoc) (doc : RecvDoc) : Prop where
  parentNo : ∀ p, doc.parentNo = some p → sent.parentNo = p
  special : doc.hasSpecialParent = sent.hasSpecialParent
  holds : ∀ m, doc.mem = .simple m → doc.Holds sent.data

structure Grown (sent : SendDoc) (doc : RecvDoc) : Prop where
  special : doc.hasSpecialParent = sent.hasSpecialParent
  bytes : ∀ m, doc.mem = .simple m → m = sent.data.map some

variable {doc doc' : RecvDoc} {complete : Bool}

lemma simple_of_recvDoc {m : List (Option UInt8)} {seg : Bytes} {off : ℕ} (hne : seg ≠ [])
    (hr : doc.recvDoc off seg = .ok (complete, doc')) (hm : doc'.mem = .simple m) : ∃ m', doc.mem = .simple m' := by
  obtain ⟨-, -, -, mem, -, -, -, hwrite, -, -, hmem⟩ := recvDoc_ok hne hr
  cases hdoc : doc.mem with
  | simple m' => exact ⟨m', rfl⟩
  | replyBuf range m' =>
    rw [hdoc, DocMem.write] at hwrite
    split_ifs at hwrite
    · rw [hmem, ← ok_inj.mp hwrite] at hm
      cases hm
    · cases hwrite

lemma Growing.recvDoc (h : doc.Growing sent) (hf : f.PieceOf docNo sent) (hr : doc.recvDoc f.off f.data = .ok (complete, doc')) :
    doc'.Growing sent ∧ (complete = true → doc'.Grown sent) := by
  obtain ⟨hparent, hspecial⟩ := recvDoc_header hr
  have hholds : ∀ m, doc'.mem = .simple m → doc'.Holds sent.data ∧ (complete = true → doc'.totalRecv = doc'.mem.len) := by
    intro m hm
    obtain ⟨m', hm'⟩ := simple_of_recvDoc hf.nonempty hr hm
    have hdoc := h.holds m' hm'
    have htook := (ends_recvDoc (S := fun _ => True) hdoc.sane fun _ _ => trivial).ok hr
    exact ⟨hdoc.recvDoc hf.nonempty hf.data hr, htook.complete⟩
  refine ⟨⟨fun p hp => h.parentNo p (hparent ▸ hp), hspecial.trans h.special, fun m hm => (hholds m hm).1⟩,
    fun hcomplete => ⟨hspecial.trans h.special, fun m hm => ?_⟩⟩
  obtain ⟨hdoc, htotal⟩ := hholds m hm
  have hmem := hdoc.mem_eq (htotal hcomplete)
  rw [hm] at hmem
  exact DocMem.simple.inj hmem

lemma growing_newDoc {buffer : Option BufRange} {mem : DocMem} (hf : f.PieceOf docNo sent)
    (hmem : (alloc sent.data.length buffer : Outcome ε _) = .ok mem) : (newDoc f sent.data.length mem).Growing sent := by
  refine ⟨fun p hp => ?_, hf.special, fun m hm => ?_⟩
  · have hp : f.parentNo = some p := hp
    rw [hf.parentNo] at hp
    split_ifs at hp
    exact Option.some.inj hp
  · obtain rfl : mem = .simple m := hm
    cases buffer with
    | some range => cases hmem
    | none =>
      rw [alloc] at hmem
      split_ifs at hmem with hlen
      · rw [← ok_inj.mp hmem]
        exact holds_newDoc hlen sent.data rfl
      · cases hmem

end RecvDoc

structure RecvDocMutable.Genuine (D : ℕ → Option SendDoc) (e : RecvDocMutable) : Prop where
  doc : ∀ doc, e.doc = .active doc → ∃ sent ∈ D e.docNo, doc.Growing sent
  channel : ∀ c, e.channel = some c → c.Genuine D e.docNo
  orphans : ∀ d ∈ e.adoptableOrphans, ∃ p, e.orphansExpectedParentNo = some p ∧ d.Genuine D p

def SendDocMutable.Genuine (D : ℕ → Option SendDoc) (e : SendDocMutable) : Prop := ∀ c, e.channel = some c → c.Genuine D e.docNo

/-- A segment of a document that was sent. -/
def SegFrame.Genuine (D : ℕ → Option SendDoc) (f : SegFrame) : Prop := ∃ sent ∈ D f.docNo, f.PieceOf f.docNo sent

/-- What a thread has in hand. A segment that has not been looked at yet may be anything. -/
def Task.Genuine (D : ℕ → Option SendDoc) : Task → Prop
  | wait f _ => f.Genuine D
  | lookUp f docLen => f.Genuine D ∧ f.docLen = some docLen
  | fill f docLen _ => f.Genuine D ∧ f.docLen = some docLen
  | handOver docNo parentNo _ doc => ∃ sent ∈ D docNo, sent.parentNo = parentNo ∧ doc.Grown sent
  | _ => True

structure SessionInner.Genuine (D : ℕ → Option SendDoc) (s : SessionInner T) : Prop where
  recv : ∀ e ∈ s.recvTable, e.Genuine D
  send : ∀ e ∈ s.sendTable, e.Genuine D

structure Done.Genuine (D : ℕ → Option SendDoc) (done : Done T) : Prop where
  session : done.session.Genuine D
  tasks : ∀ t ∈ done.tasks, t.Genuine D

section Writes

variable {e e' : RecvDocMutable} {c c' : OpenChannel}

lemma genuine_tasks_nil : ∀ t ∈ ([] : List Task), t.Genuine D := fun _ ht => absurd ht List.not_mem_nil

namespace SessionInner.Genuine

lemma of_tables (h : s.Genuine D) (hr : s'.recvTable = s.recvTable) (ht : s'.sendTable = s.sendTable) : s'.Genuine D :=
  ⟨hr ▸ h.recv, ht ▸ h.send⟩

lemma of_view (h : s.Genuine D) (hs : s'.view = s.view) : s'.Genuine D := h.of_tables (recvTable_of_view hs) (sendTable_of_view hs)

lemma writesRecv (h : s.Genuine D) (hs : WritesRecv s s' i e') (he : e'.Genuine D) : s'.Genuine D := by
  refine ⟨fun x hx => ?_, hs.sendTable ▸ h.send⟩
  rw [hs.recvTable] at hx
  obtain hx | rfl := List.mem_or_eq_of_mem_set hx
  · exact h.recv x hx
  · exact he

lemma writesSend {e' : SendDocMutable} (h : s.Genuine D) (hs : WritesSend s s' i e') (he : e'.Genuine D) : s'.Genuine D := by
  refine ⟨hs.recvTable ▸ h.recv, fun x hx => ?_⟩
  rw [hs.sendTable] at hx
  obtain hx | rfl := List.mem_or_eq_of_mem_set hx
  · exact h.send x hx
  · exact he

lemma setRecv (h : s.Genuine D) (he : e'.Genuine D) : (s.setRecv i e').Genuine D := h.writesRecv (writesRecv_setRecv s i e') he

lemma setSend {e' : SendDocMutable} (h : s.Genuine D) (he : e'.Genuine D) : (s.setSend i e').Genuine D :=
  h.writesSend (writesSend_setSend s i e') he

lemma recvAt (h : s.Genuine D) (he : s.recvTable[i]? = some e) : e.Genuine D := h.recv e (List.mem_of_getElem? he)

lemma channelOf (h : s.Genuine D) (hc : s.channelOf docNo = some c) : c.Genuine D docNo := by
  obtain ⟨e, he, rfl, hch, -⟩ | ⟨e, he, rfl, hch, -⟩ := channelOf_cases hc
  · exact h.send e (List.mem_of_getElem? he) c hch
  · exact (h.recvAt he).channel c hch

lemma setChannel (h : s.Genuine D) (hc : s.channelOf docNo = some c) {x : Option OpenChannel}
    (hx : ∀ c', x = some c' → c'.Genuine D docNo) : (s.setChannel docNo x).Genuine D := by
  obtain ⟨e, he, rfl, -, -, hset⟩ | ⟨e, he, rfl, -, -, hset⟩ := channelOf_cases hc
  · rw [hset]
    exact h.setSend hx
  · rw [hset]
    have hold := h.recvAt he
    exact h.setRecv ⟨hold.doc, hx, hold.orphans⟩

end SessionInner.Genuine

lemma view_completeDoc {isClosed : Bool} (h : (s.completeDoc i docNo e : Outcome ε _) = .ok (isClosed, s')) :
    s'.view = (s.setRecv i { e with channel := e.channel.map OpenChannel.addRef }).view := by
  cases hc : e.channel with
  | none =>
    simp only [completeDoc, hc] at h
    rw [← (Prod.mk.inj (ok_inj.mp h)).2]
    rw [Option.map_none, ← hc]
    rfl
  | some c =>
    simp only [completeDoc, hc] at h
    obtain ⟨n, hn, h⟩ := bind_eq_ok.mp h
    rw [← (Prod.mk.inj (ok_inj.mp h)).2, eq_of_add_eq_ok hn]
    rfl

end Writes

section Receiving

variable {e : RecvDocMutable} {doc : RecvDoc} {done : Done T}

lemma genuine_finSection (h : s.Genuine D) (he : s.recvTable[i]? = some e) (hno : e.docNo = docNo) (hdoc : e.doc = .active doc)
    (hsent : sent ∈ D docNo) (hgrown : doc.Grown sent) (hr : (s.finSection i docNo : Outcome ε _) = .ok done) : done.Genuine D := by
  obtain ⟨x, hx, hr⟩ := bind_eq_ok.mp hr
  obtain rfl := Option.some_inj.mp (he.symm.trans (entryAt_eq_ok hx))
  have hold := h.recvAt he
  rw [hdoc] at hr
  dsimp only at hr
  have hfinishing : RecvDocMutable.Genuine D { e with doc := .finishing } :=
    ⟨fun _ hx => (by cases hx), hold.channel, hold.orphans⟩
  cases hparent : doc.parentNo with
  | none =>
    rw [hparent] at hr
    cases hr
    exact ⟨h.setRecv hfinishing, genuine_tasks_nil⟩
  | some parentNo =>
    rw [hparent] at hr
    obtain ⟨⟨isClosed, s'⟩, hcomplete, hr⟩ := bind_eq_ok.mp hr
    cases hr
    obtain ⟨sent', hsent', hgrowing⟩ := hold.doc doc hdoc
    obtain rfl : sent' = sent := Option.mem_unique (hno ▸ hsent') hsent
    have hcounted : RecvDocMutable.Genuine D { e with doc := .finishing, channel := e.channel.map OpenChannel.addRef } := by
      refine ⟨hfinishing.doc, fun c hc => ?_, hold.orphans⟩
      obtain ⟨c', hc', rfl⟩ := Option.map_eq_some_iff.mp hc
      exact ⟨(hold.channel c' hc').ready, (hold.channel c' hc').reply⟩
    refine ⟨(h.setRecv hcounted).of_view (view_completeDoc hcomplete), List.forall_mem_singleton.mpr ?_⟩
    exact ⟨sent', hsent, hgrowing.parentNo parentNo hparent, hgrown⟩

lemma genuine_intoSection (h : s.Genuine D) (hi : s.recvTable[i]?.isSome) (he : e.Genuine D) (hno : e.docNo = f.docNo)
    (hsent : sent ∈ D f.docNo) (hdoc : doc.Growing sent) (hf : f.PieceOf f.docNo sent)
    (hr : (s.intoSection i e doc f : Outcome ε _) = .ok done) : done.Genuine D := by
  obtain ⟨r, hattempt, hr⟩ := bind_eq_ok.mp hr
  obtain ⟨⟨complete, doc'⟩, hrecv, rfl⟩ | ⟨err, rfl⟩ := attempt_eq_ok hattempt
  · obtain ⟨hgrowing, hgrown⟩ := hdoc.recvDoc hf hrecv
    have hentry : RecvDocMutable.Genuine D { e with doc := .active doc' } := by
      refine ⟨fun x hx => ?_, he.channel, he.orphans⟩
      cases hx
      exact ⟨sent, hno ▸ hsent, hgrowing⟩
    cases complete with
    | false =>
      cases hr
      exact ⟨h.setRecv hentry, genuine_tasks_nil⟩
    | true =>
      obtain ⟨x, hx⟩ := Option.isSome_iff_exists.mp hi
      exact genuine_finSection (h.setRecv hentry) (getElem?_set_of_getElem? hx _) hno rfl hsent (hgrown rfl) hr
  · cases hr
    exact ⟨h.setRecv he, genuine_tasks_nil⟩

lemma genuine_dropDocs (c : Option OpenChannel) : ∀ t ∈ dropDocs c, t.Genuine D := by
  cases c with
  | none => exact genuine_tasks_nil
  | some c =>
    intro t ht
    obtain ⟨d, -, rfl⟩ := List.mem_map.mp ht
    trivial

lemma Done.Genuine.append {tasks : List Task} (h : done.Genuine D) (ht : ∀ t ∈ tasks, t.Genuine D) :
    Done.Genuine D { done with tasks := done.tasks ++ tasks } :=
  ⟨h.session, List.forall_mem_append.mpr ⟨h.tasks, ht⟩⟩

lemma genuine_updateSection {c : Option OpenChannel} (h : s.Genuine D) (hi : s.recvTable[i]?.isSome) (he : e.Genuine D)
    (hno : ∀ doc, e.doc = .active doc → e.docNo = f.docNo) (hf : f.Genuine D)
    (hr : (s.updateSection i e f c : Outcome ε _) = .ok done) : done.Genuine D := by
  rw [updateSection] at hr
  split at hr
  · cases hr
    exact ⟨h.setRecv he, List.forall_mem_singleton.mpr hf⟩
  · rename_i doc hdoc
    obtain ⟨inner, hinto, hr⟩ := bind_eq_ok.mp hr
    cases hr
    have hno := hno doc hdoc
    obtain ⟨sent, hsent, hpiece⟩ := hf
    obtain ⟨sent', hsent', hgrowing⟩ := he.doc doc hdoc
    obtain rfl : sent' = sent := Option.mem_unique (hno ▸ hsent') hsent
    exact (genuine_intoSection h hi he hno hsent hgrowing hpiece hinto).append (genuine_dropDocs c)
  · cases hr
    exact ⟨h.setRecv he, genuine_dropDocs c⟩

lemma genuine_fillSection {docLen : ℕ} {buffer : Option BufRange} (h : s.Genuine D)
    (hno : ∀ e, s.recvTable[s.recvIdx f.docNo]? = some e → e.docNo = f.docNo) (hf : f.Genuine D)
    (hlen : f.docLen = some docLen) (hr : (s.fillSection f docLen buffer : Outcome ε _) = .ok done) : done.Genuine D := by
  obtain ⟨k, hk, hr⟩ := bind_eq_ok.mp hr
  obtain ⟨e, hentry, hr⟩ := bind_eq_ok.mp hr
  obtain ⟨rfl, he⟩ := exists_recv hk hentry
  obtain ⟨sent, hsent, hpiece⟩ := hf
  obtain rfl : docLen = sent.data.length := Option.some.inj (hlen.symm.trans hpiece.docLen)
  split_ifs at hr
  · cases hr
  obtain ⟨mem, hmem, hr⟩ := bind_eq_ok.mp hr
  exact genuine_intoSection h (by rw [he]; rfl) (h.recvAt he) (hno e he) hsent (RecvDoc.growing_newDoc hpiece hmem) hpiece hr

lemma genuine_claimSlot {docLen : ℕ} (h : s.Genuine D) (he : e.Genuine D) (hmay : s.mayClaim e f.docNo docLen) :
    (s.claimSlot i e f docLen).Genuine D := by
  have hparent : e.orphansExpectedParentNo.all (· = f.docNo) := by
    rw [mayClaim, Bool.and_eq_true, Bool.and_eq_true] at hmay
    exact hmay.1.2
  refine SessionInner.Genuine.setRecv (h.of_tables rfl rfl) ⟨fun _ hx => ?_, fun c hc => ?_, fun _ hd => absurd hd List.not_mem_nil⟩
  · cases hx
  dsimp only at hc
  split_ifs at hc
  rw [← Option.some.inj hc]
  refine ⟨fun d hd => ?_, fun _ _ hx => by cases hx⟩
  obtain ⟨p, hp, hd⟩ := he.orphans d hd
  rw [hp, Option.all_some, decide_eq_true_eq] at hparent
  exact hparent ▸ hd

lemma recvIdx_claimSlot {docLen : ℕ} : (s.claimSlot i e f docLen).recvIdx docNo = s.recvIdx docNo :=
  recvIdx_of_eq (List.length_set ..) docNo

lemma genuine_createSection (h : s.Genuine D) (he : s.recvTable[s.recvIdx f.docNo]? = some e) (hf : f.Genuine D)
    (hr : (s.createSection (s.recvIdx f.docNo) e f : Outcome ε _) = .ok done) : done.Genuine D := by
  rw [createSection] at hr
  split at hr
  · cases hr
    exact ⟨h, genuine_tasks_nil⟩
  rename_i docLen hlen
  split at hr
  · cases hr
    exact ⟨h, genuine_tasks_nil⟩
  rename_i hmay
  have hclaim : (s.claimSlot (s.recvIdx f.docNo) e f docLen).Genuine D :=
    genuine_claimSlot h (h.recvAt he) (by simpa using hmay)
  have hdropped : ∀ t ∈ (if f.isClosed then e.adoptableOrphans else []).map dropDoc ++ dropDocs e.channel, t.Genuine D := by
    refine List.forall_mem_append.mpr ⟨fun t ht => ?_, genuine_dropDocs e.channel⟩
    obtain ⟨d, -, rfl⟩ := List.mem_map.mp ht
    trivial
  dsimp only at hr
  split at hr
  · cases hr
    exact ⟨hclaim, List.forall_mem_cons.mpr ⟨⟨hf, hlen⟩, hdropped⟩⟩
  · obtain ⟨inner, hfill, hr⟩ := bind_eq_ok.mp hr
    cases hr
    refine (genuine_fillSection hclaim (fun x hx => ?_) hf hlen hfill).append hdropped
    rw [recvIdx_claimSlot] at hx
    rw [← Option.some.inj ((getElem?_set_of_getElem? he _).symm.trans hx)]

lemma genuine_segSection (h : s.Genuine D) (hf : f.Genuine D)
    (hr : (s.segSection f : Outcome ε _) = .ok done) : done.Genuine D := by
  rw [segSection] at hr
  split at hr
  · cases hr
    exact ⟨h, genuine_tasks_nil⟩
  obtain ⟨k, hk, hr⟩ := bind_eq_ok.mp hr
  obtain ⟨e, hentry, hr⟩ := bind_eq_ok.mp hr
  obtain ⟨rfl, he⟩ := exists_recv hk hentry
  have hold := h.recvAt he
  split at hr
  · rename_i hno
    refine genuine_updateSection h (by rw [he]; rfl) ?_ (fun _ _ => ?_) hf hr
    · split
      · exact ⟨hold.doc, fun c hc => (by cases hc), hold.orphans⟩
      · exact hold
    · split <;> exact hno
  · split at hr
    · exact genuine_createSection h he hf hr
    · cases hr
      exact ⟨h, genuine_tasks_nil⟩

lemma genuine_waitSection {c : Option OpenChannel} (h : s.Genuine D)
    (hno : ∀ e doc, s.recvTable[s.recvIdx f.docNo]? = some e → e.doc = .active doc → e.docNo = f.docNo)
    (hf : f.Genuine D) (hr : (s.waitSection f c : Outcome ε _) = .ok done) : done.Genuine D := by
  obtain ⟨k, hk, hr⟩ := bind_eq_ok.mp hr
  obtain ⟨e, hentry, hr⟩ := bind_eq_ok.mp hr
  obtain ⟨rfl, he⟩ := exists_recv hk hentry
  exact genuine_updateSection h (by rw [he]; rfl) (h.recvAt he) (fun doc => hno e doc he) hf hr

lemma genuine_lendBuffer {buffer : Option BufRange} (h : s.Genuine D) (hr : (s.lendBuffer f : Outcome ε _) = .ok (buffer, s')) :
    s'.Genuine D := by
  rw [lendBuffer] at hr
  split at hr
  · obtain ⟨⟨r, s''⟩, hupdate, hr⟩ := bind_eq_ok.mp hr
    obtain ⟨-, rfl⟩ := Prod.mk.inj (ok_inj.mp hr)
    obtain ⟨c, b, c', hc, hg, -, rfl⟩ | ⟨-, -, rfl⟩ := updateChannel_eq_ok hupdate
    · obtain ⟨-, rfl⟩ := Prod.mk.inj (ok_inj.mp hg)
      have hold := h.channelOf hc
      refine h.setChannel hc fun x hx => ?_
      rw [← Option.some.inj hx]
      refine ⟨hold.ready, fun len u hreply => hold.reply len u ?_⟩
      dsimp only at hreply
      cases hb : c.replyBuffer <;> rw [hb] at hreply <;> first | exact hreply | cases hreply
    · exact h
  · obtain ⟨-, rfl⟩ := Prod.mk.inj (ok_inj.mp hr)
    exact h

section HandOver

variable {parentNo : ℕ} {isClosed : Bool}

lemma genuine_post {c c' : OpenChannel} (h : c.Genuine D sent.parentNo) (hsent : sent ∈ D docNo) (hgrown : doc.Grown sent)
    (hr : (c.post docNo parentNo isClosed doc : Outcome ε _) = .ok c') : c'.Genuine D sent.parentNo := by
  rw [OpenChannel.post] at hr
  split at hr
  · rename_i buf hmem
    cases hr
    refine ⟨List.forall_mem_append.mpr ⟨h.ready, List.forall_mem_singleton.mpr ?_⟩, h.reply⟩
    exact ⟨sent, hsent, hgrown.bytes buf hmem, hgrown.special, rfl⟩
  · split at hr
    · cases hr
      refine ⟨h.ready, fun len u hu => ?_⟩
      cases hu
      exact ⟨sent, hsent, hgrown.special, rfl⟩
    · cases hr

lemma genuine_adoptLater {r : Except RecvError Unit} (h : s.Genuine D) (hsent : sent ∈ D docNo) (hp : sent.parentNo = parentNo)
    (hgrown : doc.Grown sent) (hr : (s.adoptLater docNo parentNo isClosed doc : Outcome ε _) = .ok (r, s')) : s'.Genuine D := by
  obtain ⟨k, hk, hr⟩ := bind_eq_ok.mp hr
  obtain ⟨e, hentry, hr⟩ := bind_eq_ok.mp hr
  obtain ⟨rfl, he⟩ := exists_recv hk hentry
  have hold := h.recvAt he
  split_ifs at hr with hwait
  · split at hr
    · rename_i buf hmem
      rw [← (Prod.mk.inj (ok_inj.mp hr)).2]
      refine h.setRecv ⟨hold.doc, hold.channel, List.forall_mem_append.mpr ⟨fun d hd => ?_, List.forall_mem_singleton.mpr ?_⟩⟩
      · -- whoever waits there already has the same parent
        obtain ⟨p, hp', hd⟩ := hold.orphans d hd
        have hsame := hwait.2
        rw [hp', Option.all_some, decide_eq_true_eq] at hsame
        exact ⟨parentNo, rfl, hsame ▸ hd⟩
      · exact ⟨parentNo, rfl, sent, hsent, hgrown.bytes buf hmem, hgrown.special, hp⟩
    · cases hr
  · rw [← (Prod.mk.inj (ok_inj.mp hr)).2]
    exact h

lemma genuine_handOverSection (h : s.Genuine D) (hsent : sent ∈ D docNo) (hp : sent.parentNo = parentNo) (hgrown : doc.Grown sent)
    (hr : (s.handOverSection docNo parentNo isClosed doc : Outcome ε _) = .ok done) : done.Genuine D := by
  have hnotOpen {n : ℕ} (hr : (handOverSection.notOpen docNo parentNo isClosed doc s n : Outcome ε _) = .ok done) : done.Genuine D := by
    rw [handOverSection.notOpen] at hr
    split_ifs at hr
    · cases hr
      exact ⟨h, List.forall_mem_singleton.mpr trivial⟩
    · cases hr
      exact ⟨h, genuine_tasks_nil⟩
    · obtain ⟨⟨r, s'⟩, hadopt, hr⟩ := bind_eq_ok.mp hr
      have hs' := genuine_adoptLater h hsent hp hgrown hadopt
      cases r <;> cases hr <;> exact ⟨hs', genuine_tasks_nil⟩
  obtain ⟨⟨n, c⟩, hslot, hr⟩ := bind_eq_ok.mp hr
  cases c with
  | none => exact hnotOpen hr
  | some c =>
    dsimp only at hr
    split_ifs at hr with hn
    · obtain ⟨c', hpost, hr⟩ := bind_eq_ok.mp hr
      have hc := channelOf_of_channelSlot hslot
      rw [if_pos hn] at hc
      cases hr
      refine ⟨h.setChannel hc fun x hx => ?_, genuine_tasks_nil⟩
      rw [← Option.some.inj hx]
      subst hp
      exact genuine_post (h.channelOf hc) hsent hgrown hpost
    · exact hnotOpen hr

end HandOver

lemma genuine_dropRound {docLen : ℕ} {pushed : List (ℕ × ℕ)} (h : s.Genuine D)
    (hr : (s.dropRound docNo docLen : Outcome ε _) = .ok (pushed, s')) : s'.Genuine D := by
  rw [dropRound] at hr
  dsimp only at hr
  generalize hs₁ : scheduleSendControl _ variantControlFinParentClosed docNo = s₁ at hr
  have h₁ : s₁.Genuine D := hs₁ ▸ h.of_tables rfl rfl
  obtain ⟨k, hk, hr⟩ := bind_eq_ok.mp hr
  obtain ⟨e, hentry, hr⟩ := bind_eq_ok.mp hr
  obtain ⟨rfl, he⟩ := exists_recv hk hentry
  split_ifs at hr
  · cases hr
  · have hgone : (s₁.setRecv (s₁.recvIdx docNo) { e with doc := .finParentClose, channel := none, needsSendControl := true }).Genuine D :=
      h₁.setRecv ⟨fun _ hx => (by cases hx), fun _ hx => (by cases hx), (h₁.recvAt he).orphans⟩
    split at hr
    · rw [← (Prod.mk.inj (ok_inj.mp hr)).2]
      exact hgone.of_tables rfl rfl
    · rw [← (Prod.mk.inj (ok_inj.mp hr)).2]
      exact hgone
  · rw [← (Prod.mk.inj (ok_inj.mp hr)).2]
    exact h₁

end Receiving

lemma Task.Genuine.run {task : Task} {done : Done T} (h : s.Genuine D) (hnum : Numbered s (s.tokens + task.tokens))
    (hseg : ∀ f, task = .seg f → f.Genuine D)
    (hwait : ∀ f c, task = .wait f c → ∀ e doc, s.recvTable[s.recvIdx f.docNo]? = some e → e.doc = .active doc → e.docNo = f.docNo)
    (ht : task.Genuine D) (hr : (task.run s : Outcome ε _) = .ok done) : done.Genuine D := by
  cases task with
  | seg f => exact genuine_segSection h (hseg f rfl) hr
  | wait f c => exact genuine_waitSection h (hwait f c rfl) ht hr
  | lookUp f docLen =>
    obtain ⟨⟨buffer, s'⟩, hlend, hr⟩ := bind_eq_ok.mp hr
    cases hr
    exact ⟨genuine_lendBuffer h hlend, List.forall_mem_singleton.mpr ht⟩
  | fill f docLen buffer =>
    have hclaim : .claim f.docNo ∈ s.tokens + Task.tokens (.fill f docLen buffer) := by simp [Task.tokens]
    exact genuine_fillSection h (fun e he => (hnum.reserved_of_mem he hclaim rfl).1) ht.1 ht.2 hr
  | handOver docNo parentNo isClosed doc =>
    obtain ⟨sent, hsent, hp, hgrown⟩ := ht
    exact genuine_handOverSection h hsent hp hgrown hr
  | dropRound docNo docLen =>
    obtain ⟨⟨pushed, s'⟩, hdrop, hr⟩ := bind_eq_ok.mp hr
    cases hr
    refine ⟨genuine_dropRound h hdrop, fun t ht => ?_⟩
    obtain ⟨_, -, rfl⟩ := List.mem_map.mp ht
    trivial
  | abandon =>
    cases hr
    exact ⟨h.of_tables rfl rfl, genuine_tasks_nil⟩

section Application

variable {c : Channel} {done : Done T}

namespace Channel

lemma genuine_takeReady {r : Option (Option UnfinishedRecvDoc)} (h : s.Genuine D) (hr : (c.takeReady s : Outcome ε _) = .ok (r, s')) :
    s'.Genuine D ∧ ∀ d, r = some (some d) → d.Genuine D c.docNo := by
  obtain ⟨⟨r', s₁⟩, hupdate, hr'⟩ := bind_eq_ok.mp hr
  obtain ⟨ch, a, ch', hc, hg, rfl, rfl⟩ | ⟨-, rfl, rfl⟩ := updateChannel_eq_ok hupdate
  · obtain ⟨rfl, rfl⟩ := Prod.mk.inj (ok_inj.mp hg)
    have hold := h.channelOf hc
    have hleft : (s.setChannel c.docNo (some { ch with readyDocs := ch.readyDocs.dropLast })).Genuine D := by
      refine h.setChannel hc fun x hx => ?_
      rw [← Option.some.inj hx]
      exact ⟨fun d hd => hold.ready d (List.mem_of_mem_dropLast hd), hold.reply⟩
    cases hlast : ch.readyDocs.getLast? with
    | none =>
      rw [hlast] at hr'
      obtain ⟨rfl, rfl⟩ := Prod.mk.inj (ok_inj.mp hr')
      exact ⟨hleft, fun d hd => by cases hd⟩
    | some d =>
      rw [hlast] at hr'
      obtain ⟨rfl, rfl⟩ := Prod.mk.inj (ok_inj.mp hr')
      refine ⟨hleft.of_tables rfl rfl, fun x hx => ?_⟩
      cases hx
      exact hold.ready d (List.mem_of_getLast? hlast)
  · obtain ⟨rfl, rfl⟩ := Prod.mk.inj (ok_inj.mp hr')
    exact ⟨h, fun d hd => by cases hd⟩

lemma exists_takeReady {c' : Channel} {buf : List (Option UInt8)} (h : (c.tryRecv s : Outcome ε _) = .ok (.ok (some (buf, c')), s') ∨
    (c.pollRecv s : Outcome ε _) = .ok (some (.ok (buf, c')), s')) :
    ∃ d, (c.takeReady s : Outcome ε _) = .ok (some (some d), s') ∧ delivered d = (buf, c') := by
  rw [tryRecv, pollRecv] at h
  cases hbasic : c.checkBasic s with
  | error e =>
    rw [hbasic] at h
    obtain h | h := h <;> cases h
  | ok u =>
    rw [hbasic] at h
    dsimp only at h
    rw [bind_eq_ok, bind_eq_ok] at h
    obtain ⟨⟨r, s₁⟩, htake, h⟩ | ⟨⟨r, s₁⟩, htake, h⟩ := h
    all_goals
      rw [htake]
      obtain _ | _ | d := r <;> cases h
      exact ⟨d, rfl, rfl⟩

lemma genuine_clone {c' : Channel} (h : s.Genuine D) (hr : (c.clone s : Outcome ε _) = .ok (c', s')) : s'.Genuine D := by
  obtain ⟨⟨r, s₁⟩, hupdate, hr'⟩ := bind_eq_ok.mp hr
  obtain ⟨rfl, rfl⟩ := Prod.mk.inj (ok_inj.mp hr')
  obtain ⟨ch, a, ch', hc, hg, rfl, rfl⟩ | ⟨-, rfl, rfl⟩ := updateChannel_eq_ok hupdate
  · obtain ⟨n, -, hg⟩ := bind_eq_ok.mp hg
    obtain ⟨-, rfl⟩ := Prod.mk.inj (ok_inj.mp hg)
    refine h.setChannel hc fun x hx => ?_
    rw [← Option.some.inj hx]
    exact ⟨(h.channelOf hc).ready, (h.channelOf hc).reply⟩
  · exact h

lemma genuine_closeSection {g : OpenChannel → Outcome ε (Bool × OpenChannel)} (h : s.Genuine D)
    (hg : ∀ ch close ch', g ch = .ok (close, ch') → ∃ n, ch' = { ch with refCount := n }) (hr : c.closeSection g s = .ok done) :
    done.Genuine D := by
  obtain ⟨ch, close, ch', hc, hclose, rfl⟩ | ⟨-, rfl⟩ := closeSection_eq_ok hr
  · split_ifs
    · refine ⟨?_, genuine_dropDocs (some ch')⟩
      obtain ⟨e, -, he, -, -, hmark⟩ | ⟨e, -, he, -, -, hmark⟩ := closing_cases hc
      · rw [hmark]
        exact (h.setSend fun _ hx => by cases hx).of_tables rfl rfl
      · rw [hmark]
        have hold := h.recvAt he
        have hclosed : RecvDocMutable.Genuine D { e with channel := none, needsSendControl := true } :=
          ⟨hold.doc, fun _ hx => (by cases hx), hold.orphans⟩
        exact (h.setRecv hclosed).of_tables rfl rfl
    · obtain ⟨n, rfl⟩ := hg ch close ch' hclose
      refine ⟨h.setChannel hc fun x hx => ?_, genuine_tasks_nil⟩
      rw [← Option.some.inj hx]
      exact ⟨(h.channelOf hc).ready, (h.channelOf hc).reply⟩
  · exact ⟨h, genuine_tasks_nil⟩

lemma genuine_dropSection (h : s.Genuine D) (hr : (c.dropSection s : Outcome ε _) = .ok done) : done.Genuine D := by
  refine genuine_closeSection h (fun ch close ch' hg => ?_) hr
  obtain ⟨n, -, hg⟩ := bind_eq_ok.mp hg
  exact ⟨n, (Prod.mk.inj (ok_inj.mp hg)).2.symm⟩

end Channel

lemma SendReplyFuture.genuine_pollSent {reply : Channel} {r : SendReplyFuture.Polled} (h : s.Genuine D)
    (hr : (SendReplyFuture.pollSent reply s : Outcome ε _) = .ok (r, s')) : s'.Genuine D ∧ ∀ len c, r = .ready len c →
      ∃ sent ∈ D c.docNo, c.hasSpecialParent = sent.hasSpecialParent ∧ sent.parentNo = reply.docNo := by
  obtain ⟨⟨r', s₁⟩, hupdate, hr'⟩ := bind_eq_ok.mp hr
  obtain ⟨ch, a, ch', hc, hg, rfl, rfl⟩ | ⟨-, rfl, rfl⟩ := updateChannel_eq_ok hupdate
  · have hold := h.channelOf hc
    have hg := ok_inj.mp hg
    rw [takeReply] at hg
    split at hg
    · obtain ⟨rfl, rfl⟩ := Prod.mk.inj hg
      obtain ⟨rfl, rfl⟩ := Prod.mk.inj (ok_inj.mp hr')
      exact ⟨h.setChannel hc fun x hx => Option.some.inj hx ▸ hold, fun _ _ hx => by cases hx⟩
    · rename_i len u hreply
      obtain ⟨rfl, rfl⟩ := Prod.mk.inj hg
      obtain ⟨rfl, rfl⟩ := Prod.mk.inj (ok_inj.mp hr')
      refine ⟨SessionInner.Genuine.of_tables (h.setChannel hc fun x hx => ?_) rfl rfl, fun _ _ hx => ?_⟩
      · rw [← Option.some.inj hx]
        exact ⟨hold.ready, fun _ _ hx => by cases hx⟩
      · cases hx
        exact hold.reply len u hreply
    · obtain ⟨rfl, rfl⟩ := Prod.mk.inj hg
      obtain ⟨rfl, rfl⟩ := Prod.mk.inj (ok_inj.mp hr')
      exact ⟨h.setChannel hc fun x hx => Option.some.inj hx ▸ hold, fun _ _ hx => by cases hx⟩
  · obtain ⟨rfl, rfl⟩ := Prod.mk.inj (ok_inj.mp hr')
    exact ⟨h, fun _ _ hx => by cases hx⟩

lemma Call.genuine_step {call : Call} {next : Call.Next} (h : s.Genuine D) (hr : (call.step s : Outcome ε _) = .ok (next, s')) :
    s'.Genuine D := by
  cases Call.accessed hr with
  | enter | undo | weigh | unload | draw => exact h.of_tables rfl rfl
  | refuse | accept | skip => exact h
  | take hp he hfree =>
    refine h.setSend fun c hc => ?_
    rw [← Option.some.inj hc]
    refine ⟨fun _ hd => absurd hd List.not_mem_nil, fun len u hu => ?_⟩
    dsimp only at hu
    rw [Call.replyBuffer] at hu
    split at hu <;> cases hu

lemma Handled.genuine {found : Prop} {before packets : List PacketBuilder} (hd : Handled found before s i docNo s' packets)
    (h : s.Genuine D) : s'.Genuine D := by
  cases hd with
  | idle hs hput => exact h.of_view hs
  | seg he hno hdoc hseg hclosed hput hs =>
    have hold := h.send _ (List.mem_of_getElem? he)
    exact h.writesSend hs hold
  | close he hno hv hput hs =>
    have hold := h.send _ (List.mem_of_getElem? he)
    exact h.writesSend hs hold
  | control he hno hflag hput hs =>
    have hold := h.recvAt he
    exact h.writesRecv hs ⟨hold.doc, hold.channel, hold.orphans⟩

end Application

namespace Machine

variable {C : Machine T → ℕ → Prop} {m m' m₀ : Machine T}

/-- What the threads are at fits the documents of the peer: the segments are pieces of them, and a thread that waited for a
reserved slot does not find another document in it. -/
structure Honest (D : ℕ → Option SendDoc) (m : Machine T) : Prop where
  segments : ∀ tasks ∈ m.threads, ∀ f, .seg f ∈ tasks → f.Genuine D
  waiting : ∀ tasks ∈ m.threads, ∀ f c, .wait f c ∈ tasks → ∀ e doc,
    m.session.recvTable[m.session.recvIdx f.docNo]? = some e → e.doc = .active doc → e.docNo = f.docNo

/-- Any number of steps, with nothing but documents of the peer. -/
abbrev HonestRun (D : ℕ → Option SendDoc) (C : Machine T → ℕ → Prop) : Machine T → Machine T → Prop :=
  Relation.ReflTransGen fun m m' => Step C m m' ∧ m'.Honest D

structure Genuine (D : ℕ → Option SendDoc) (m : Machine T) : Prop where
  session : m.session.Genuine D
  threads : ∀ tasks ∈ m.threads, ∀ t ∈ tasks, t.Genuine D

namespace Genuine

lemma keep (h : m.Genuine D) (hs : m'.session.Genuine D) (ht : m'.threads = m.threads) : m'.Genuine D := ⟨hs, ht ▸ h.threads⟩

lemma spawned {done : Done T} (h : m.Genuine D) (hd : done.Genuine D) (hs : m'.session = done.session)
    (ht : m'.threads = m.threads ++ [done.tasks]) : m'.Genuine D := by
  refine ⟨hs ▸ hd.session, fun tasks htasks => ?_⟩
  rw [ht] at htasks
  obtain htasks | htasks := List.mem_append.mp htasks
  · exact h.threads tasks htasks
  · rw [List.mem_singleton.mp htasks]
    exact hd.tasks

lemma resumed {k : ℕ} {task : Task} {rest : List Task} {done : Done T} (h : m.Genuine D) (hk : m.threads[k]? = some (task :: rest))
    (hd : done.Genuine D) : (m.resume k rest done).Genuine D := by
  refine ⟨hd.session, fun tasks htasks => ?_⟩
  obtain htasks | rfl := List.mem_or_eq_of_mem_set htasks
  · exact h.threads tasks htasks
  · have hrest : ∀ t ∈ rest, t.Genuine D := fun t ht => h.threads _ (List.mem_of_getElem? hk) t (List.mem_cons_of_mem _ ht)
    refine List.forall_mem_append.mpr ⟨List.forall_mem_append.mpr ⟨hd.tasks, hrest⟩, ?_⟩
    split
    · exact List.forall_mem_singleton.mpr trivial
    · exact genuine_tasks_nil

lemma threads_advance {k : ℕ} {call : Call} {next : Call.Next} {s : SessionInner T} : (m.advance k call next s).threads = m.threads := by
  cases next with
  | inl place => rfl
  | inr r =>
    cases r with
    | ok docNo =>
      rw [advance]
      dsimp only [answer]
      cases call.future <;> rfl
    | error e =>
      rw [advance]
      dsimp only [answer]
      cases call.future with
      | none => rfl
      | some fut => cases e <;> rfl

lemma handled {found : Prop} {before packets : List PacketBuilder} (h : m.Genuine D)
    (hd : Handled found before m.session i docNo s packets) : Genuine D { m with session := s } :=
  h.keep (hd.genuine h.session) rfl

lemma step (h : m.Genuine D) (hm : m.Sound) (hhonest : m.Honest D) (hstep : Step C m m') : m'.Genuine D := by
  cases hstep with
  | recvSeg f =>
    have hd : Done.Genuine D ⟨m.session, [.seg f], false⟩ := ⟨h.session, List.forall_mem_singleton.mpr trivial⟩
    exact h.spawned hd rfl rfl
  | @run k task rest done hk hr =>
    have hmem := List.mem_of_getElem? hk
    have hnum := hm.coherent.numbered.mono (task_le hmem List.mem_cons_self)
    refine h.resumed hk (Task.Genuine.run h.session hnum ?_ ?_ (h.threads _ hmem task List.mem_cons_self) hr)
    · rintro f rfl
      exact hhonest.segments _ hmem f List.mem_cons_self
    · rintro f c rfl
      exact hhonest.waiting _ hmem f c List.mem_cons_self
  | takeReady hc hr => exact h.keep (Channel.genuine_takeReady h.session hr).1 rfl
  | clone hc hr => exact h.keep (Channel.genuine_clone h.session hr) rfl
  | drop hc hr => exact h.spawned (Channel.genuine_dropSection h.session hr) rfl rfl
  | closeIf b hc hr =>
    refine h.spawned (Channel.genuine_closeSection h.session (fun ch close ch' hg => ⟨ch.refCount, ?_⟩) hr) rfl rfl
    exact (Prod.mk.inj (ok_inj.mp hg)).2.symm
  | trySend doc hc hroom => exact h.keep h.session rfl
  | sendWithReplyBuffer doc buffer hc => exact h.keep h.session rfl
  | pollSending hf hs hroom => exact h.keep h.session rfl
  | @pollSent fut reply r s hf hs hr =>
    have hs' := (SendReplyFuture.genuine_pollSent h.session hr).1
    cases r <;> exact h.keep hs' rfl
  | dropSending hf hs => exact h.keep h.session rfl
  | dropSent hf hs hC hr => exact h.spawned (Channel.genuine_dropSection h.session hr) rfl rfl
  | @send k call next s hk hr =>
    refine h.keep ?_ threads_advance
    rw [session_advance]
    exact Call.genuine_step h.session hr
  | @sendDoc tx tx' docNo htx hr =>
    have hleads : Leads (Handled True tx.packets tx.session (tx.session.docIdx docNo) docNo) (SessionInner.sendDoc tx docNo) := leads_sendDoc
    rw [hr, htx] at hleads
    exact h.handled hleads
  | @lastDoc tx out docNo htx hr =>
    have hleads : Leads (Handled True tx.packets tx.session (tx.session.docIdx docNo) docNo) (SessionInner.sendDoc tx docNo) := leads_sendDoc
    rw [hr, htx] at hleads
    exact h.handled hleads
  | @sendRetry tx tx' docNo htx hr =>
    have hleads : Leads (Handled False tx.packets tx.session (m.session.sendIdx docNo) docNo) _ := leads_sendRetry False.elim
    rw [hr, htx] at hleads
    exact h.handled hleads
  | @lastRetry tx out docNo htx hr =>
    have hleads : Leads (Handled False tx.packets tx.session (m.session.sendIdx docNo) docNo) _ := leads_sendRetry False.elim
    rw [hr, htx] at hleads
    exact h.handled hleads

end Genuine

lemma Initial.genuine (hm : m.Initial) : m.Genuine D := by
  refine ⟨⟨fun e he => ?_, fun e he c hc => ?_⟩, fun tasks htasks => ?_⟩
  · obtain ⟨i, he⟩ := List.getElem?_of_mem he
    obtain ⟨hactive, horphans, hchannel⟩ := hm.recv i e he
    refine ⟨fun doc hdoc => ?_, fun c hc => ?_, fun d hd => ?_⟩
    · rw [hdoc] at hactive
      exact absurd rfl hactive
    · obtain ⟨hready, hreply, -⟩ := hchannel c hc
      exact ⟨fun d hd => absurd (hready ▸ hd) List.not_mem_nil, fun len u hu => by rw [hreply] at hu; cases hu⟩
    · exact absurd (horphans ▸ hd) List.not_mem_nil
  · obtain ⟨i, he⟩ := List.getElem?_of_mem he
    obtain ⟨hready, hreply, -⟩ := hm.send i e he c hc
    exact ⟨fun d hd => absurd (hready ▸ hd) List.not_mem_nil, fun len u hu => by rw [hreply] at hu; cases hu⟩
  · rw [hm.idle.1] at htasks
    exact absurd htasks List.not_mem_nil

lemma Initial.honest (hm : m.Initial) : m.Honest D := by
  have hnone {tasks : List Task} : tasks ∉ m.threads := by
    rw [hm.idle.1]
    exact List.not_mem_nil
  exact ⟨fun _ h => absurd h hnone, fun _ h => absurd h hnone⟩

lemma HonestRun.run (h : HonestRun D C m₀ m) : Run C m₀ m :=
  Relation.ReflTransGen.mono (fun _ _ hstep => hstep.1) _ _ h

lemma HonestRun.genuine (h : HonestRun D C m₀ m) (hm₀ : m₀.Initial) : m.Genuine D := by
  have hall : m.Genuine D ∧ m.Honest D := by
    induction h with
    | refl => exact ⟨hm₀.genuine, hm₀.honest⟩
    | tail hrun hstep ih => exact ⟨ih.1.step (Run.sound (HonestRun.run hrun) hm₀.sound) ih.2 hstep.1, hstep.2⟩
  exact hall.1

/-- Whatever the order of the segments, the interleaving of the threads and what the application does: a document that the
application gets was sent under its number, with the same bytes, and it comes out of the channel of the parent it was sent with. -/
theorem documents_intact (hm₀ : m₀.Initial) (hrun : HonestRun D C m₀ m) :
    (∀ (c c' : Channel) (buf : List (Option UInt8)) (s : SessionInner T),
      (c.tryRecv m.session : Outcome Empty _) = .ok (.ok (some (buf, c')), s) ∨
        (c.pollRecv m.session : Outcome Empty _) = .ok (some (.ok (buf, c')), s) →
      ∃ sent ∈ D c'.docNo, buf = sent.data.map some ∧ c'.hasSpecialParent = sent.hasSpecialParent ∧ sent.parentNo = c.docNo) ∧
    ∀ (reply c' : Channel) (len : ℕ) (s : SessionInner T),
      (SendReplyFuture.pollSent reply m.session : Outcome Empty _) = .ok (.ready len c', s) →
      ∃ sent ∈ D c'.docNo, c'.hasSpecialParent = sent.hasSpecialParent ∧ sent.parentNo = reply.docNo := by
  have hm := hrun.genuine hm₀
  refine ⟨fun c c' buf s h => ?_, fun reply c' len s h => (SendReplyFuture.genuine_pollSent hm.session h).2 len c' rfl⟩
  obtain ⟨d, htake, hd⟩ := Channel.exists_takeReady h
  cases hd
  exact (Channel.genuine_takeReady hm.session htake).2 d rfl

/-- A child of document 0, and the one segment it is sent in. -/
def child : SendDoc := ⟨0, false, false, 0, [7]⟩

def childFrame : SegFrame := ⟨2, some 1, some 0, 0, [7], false, true, true, false⟩

lemma childFrame_genuine : childFrame.Genuine fun _ => some child := by
  refine ⟨child, rfl, rfl, rfl, List.cons_ne_nil _ _, le_rfl, fun k hk => ?_, rfl, rfl⟩
  rw [show childFrame.off = 0 from rfl, Nat.zero_add]
  rfl

lemma Honest.of_task {t : Task} (hm : m.threads = [[t]]) (hseg : ∀ f, t = .seg f → f.Genuine D) (hwait : ∀ f c, t ≠ .wait f c) :
    m.Honest D := by
  refine ⟨fun tasks ht f hf => ?_, fun tasks ht f c hf => ?_⟩
  all_goals
    rw [hm] at ht
    rw [List.mem_singleton.mp ht] at hf
    have hf := (List.mem_singleton.mp hf).symm
  · exact hseg f hf
  · exact absurd hf (hwait f c)

lemma Honest.of_done (hm : m.threads = [[]]) : m.Honest D := by
  have hnone {tasks : List Task} {t : Task} (ht : tasks ∈ m.threads) : t ∉ tasks := by
    rw [hm] at ht
    rw [List.mem_singleton.mp ht]
    exact List.not_mem_nil
  exact ⟨fun _ ht _ hf => absurd hf (hnone ht), fun _ ht _ _ hf => absurd hf (hnone ht)⟩

theorem documents_intact_child : ∃ (m : Machine ℕ) (s : SessionInner ℕ), HonestRun (fun _ => some child) (fun _ _ => True) oneHandle m ∧
    (Channel.tryRecv ⟨0, false, false⟩ m.session : Outcome Empty _) = .ok (.ok (some ([some 7], ⟨2, false, false⟩)), s) ∧
    ∃ sent ∈ some child, [some 7] = sent.data.map some ∧ false = sent.hasSpecialParent ∧ sent.parentNo = 0 := by
  have hseg : HonestRun (fun _ => some child) (fun _ _ => True) oneHandle _ := .single
    ⟨.recvSeg childFrame, .of_task rfl (fun f hf => Task.seg.inj hf ▸ childFrame_genuine) fun _ _ => Task.noConfusion⟩
  have hfill := hseg.tail ⟨.run (k := 0) rfl rfl, .of_task rfl (fun _ => Task.noConfusion) fun _ _ => Task.noConfusion⟩
  have hpost := hfill.tail ⟨.run (k := 0) rfl rfl, .of_done rfl⟩
  exact ⟨_, _, hpost, rfl, (documents_intact oneHandle_initial hpost).1 ⟨0, false, false⟩ ⟨2, false, false⟩ [some 7] _ (.inl rfl)⟩

/-- The application refers to none of the documents of the peer. -/
structure Unreceived (D : ℕ → Option SendDoc) (m : Machine T) : Prop where
  handles : ∀ c ∈ m.handles, D c.docNo = none
  futures : ∀ fut ∈ m.futures, ∀ reply, fut.state = .sent reply → D reply.docNo = none

namespace Unreceived

lemma not_parent (hD : ∀ n, ∀ sent ∈ D n, sent.parentNo = n) (h : D no = none) : ¬ ∃ sent ∈ D docNo, sent.parentNo = no := by
  rintro ⟨sent, hsent, rfl⟩
  rw [hD docNo sent hsent] at h
  exact absurd hsent (by rw [h]; exact Option.not_mem_none sent)

lemma takeReady (hD : ∀ n, ∀ sent ∈ D n, sent.parentNo = n) (hm : m.Genuine D) (h : m.Unreceived D) {c : Channel} (hc : c ∈ m.handles)
    {d : UnfinishedRecvDoc} : (c.takeReady m.session : Outcome ε _) ≠ .ok (some (some d), s) := by
  intro hr
  obtain ⟨sent, hsent, -, -, hparent⟩ := (Channel.genuine_takeReady hm.session hr).2 d rfl
  exact not_parent hD (h.handles c hc) ⟨sent, hsent, hparent⟩

lemma pollSent (hD : ∀ n, ∀ sent ∈ D n, sent.parentNo = n) (hm : m.Genuine D) (h : m.Unreceived D) {fut : SendReplyFuture}
    (hf : fut ∈ m.futures) {reply c : Channel} (hs : fut.state = .sent reply) {len : ℕ} :
    (SendReplyFuture.pollSent reply m.session : Outcome ε _) ≠ .ok (.ready len c, s) := by
  intro hr
  obtain ⟨sent, hsent, -, hparent⟩ := (SendReplyFuture.genuine_pollSent hm.session hr).2 len c rfl
  exact not_parent hD (h.futures fut hf reply hs) ⟨sent, hsent, hparent⟩

lemma less (h : m.Unreceived D) (hh : m'.handles ⊆ m.handles) (hf : m'.futures ⊆ m.futures) : m'.Unreceived D :=
  ⟨fun c hc => h.handles c (hh hc), fun fut hfut => h.futures fut (hf hfut)⟩

lemma addHandle (h : m.Unreceived D) {c : Channel} (hc : D c.docNo = none) (hh : m'.handles = m.handles ++ [c])
    (hf : m'.futures ⊆ m.futures) : m'.Unreceived D := by
  refine ⟨fun x hx => ?_, fun fut hfut => h.futures fut (hf hfut)⟩
  rw [hh] at hx
  obtain hx | hx := List.mem_append.mp hx
  · exact h.handles x hx
  · rw [List.mem_singleton.mp hx]
    exact hc

lemma addFuture (h : m.Unreceived D) {fut : SendReplyFuture} (hfut : ∀ reply, fut.state = .sent reply → D reply.docNo = none)
    (hh : m'.handles = m.handles) (hf : m'.futures = m.futures ++ [fut]) : m'.Unreceived D := by
  refine ⟨hh ▸ h.handles, fun x hx => ?_⟩
  rw [hf] at hx
  obtain hx | hx := List.mem_append.mp hx
  · exact h.futures x hx
  · rw [List.mem_singleton.mp hx]
    exact hfut

lemma advance (h : m.Unreceived D) (hm : m.Sound) (hside : ∀ n, m.session.isSending n → D n = none) {k : ℕ} {call : Call}
    {next : Call.Next} (hk : m.calls[k]? = some call) (hr : (call.step m.session : Outcome ε _) = .ok (next, s)) :
    (m.advance k call next s).Unreceived D := by
  have hcall := List.mem_of_getElem? hk
  cases next with
  | inl place => exact h.less (List.Subset.refl _) (List.Subset.refl _)
  | inr r =>
    cases r with
    | ok docNo =>
      have hno : D docNo = none := by
        cases Call.accessed hr with
        | take hp he hfree => exact hside docNo (hm.locks call hcall docNo hp)
      cases hf : call.future with
      | none => exact h.addHandle (c := ⟨docNo, false, false⟩) hno (by simp [Machine.advance, answer, hf]) (by simp [Machine.advance, answer, hf])
      | some fut =>
        let fut' : SendReplyFuture := { fut with state := .sent ⟨docNo, false, false⟩ }
        have hsent : ∀ reply, fut'.state = .sent reply → D reply.docNo = none := fun reply hreply => by
          cases hreply
          exact hno
        exact h.addFuture hsent (by simp [Machine.advance, answer, hf]) (by simp [Machine.advance, answer, hf, fut'])
    | error e =>
      cases hf : call.future with
      | none => exact h.less (by simp [Machine.advance, answer, hf]) (by simp [Machine.advance, answer, hf])
      | some fut =>
        have hsending : ∀ reply, fut.state = .sent reply → D reply.docNo = none := fun reply hreply => by
          have htokens := hm.futures call hcall fut hf
          rw [SendReplyFuture.tokens, hreply] at htokens
          exact absurd htokens (Multiset.singleton_ne_zero _)
        cases e with
        | full => exact h.addFuture hsending (by simp [Machine.advance, answer, hf]) (by simp [Machine.advance, answer, hf])
        | closed | abandoned | tooLarge =>
          exact h.less (by simp [Machine.advance, answer, hf]) (by simp [Machine.advance, answer, hf])

lemma step (h : m.Unreceived D) (hD : ∀ n, ∀ sent ∈ D n, sent.parentNo = n) (hside : ∀ n, m.session.isSending n → D n = none)
    (hgenuine : m.Genuine D) (hm : m.Sound) (hstep : Step C m m') : m'.Unreceived D := by
  have herase (fut : SendReplyFuture) : m.futures.erase fut ⊆ m.futures := List.erase_subset
  cases hstep with
  | recvSeg | run | sendDoc | lastDoc | sendRetry | lastRetry | closeIf | trySend =>
    exact h.less (List.Subset.refl _) (List.Subset.refl _)
  | @takeReady c r s hc hr =>
    have hnone : taken r = [] := by
      obtain _ | _ | d := r
      · rfl
      · rfl
      · exact absurd hr (h.takeReady hD hgenuine hc)
    refine h.less ?_ (List.Subset.refl _)
    rw [hnone, List.append_nil]
    exact List.Subset.refl _
  | @clone c c' s hc hr =>
    obtain ⟨_, -, hr⟩ := bind_eq_ok.mp hr
    obtain ⟨rfl, -⟩ := Prod.mk.inj (ok_inj.mp hr)
    exact h.addHandle (h.handles c hc) rfl (List.Subset.refl _)
  | drop hc hr => exact h.less List.erase_subset (List.Subset.refl _)
  | sendWithReplyBuffer doc buffer hc => exact h.addFuture (fun _ hs => by cases hs) rfl rfl
  | pollSending hf hs hroom => exact h.less (List.Subset.refl _) (herase _)
  | @pollSent fut reply r s hf hs hr =>
    cases r with
    | pending => exact h.less (List.Subset.refl _) (List.Subset.refl _)
    | error e => exact h.addHandle (h.futures fut hf reply hs) rfl (herase fut)
    | ready len c => exact absurd hr (h.pollSent hD hgenuine hf hs)
  | dropSending hf hs => exact h.less (List.Subset.refl _) (herase _)
  | dropSent hf hs hC hr => exact h.less (List.Subset.refl _) (herase _)
  | send hk hr => exact h.advance hm hside hk hr

end Unreceived

lemma Run.isSending (h : Run C m₀ m) (hm₀ : m₀.Sound) (n : ℕ) : m.session.isSending n = m₀.session.isSending n :=
  Run.keeps (Q := fun s => s.isSending n = m₀.session.isSending n) h hm₀ (fun hc hq => (hc.isSending n).trans hq) rfl

end Machine

end Pqsnet.Session
