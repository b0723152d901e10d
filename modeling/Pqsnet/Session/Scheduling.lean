import Pqsnet.Session.FreshPackets
import Pqsnet.Session.PassMoves

/-! Which documents a pass takes out of the queue, and how far it sends them. -/

namespace Pqsnet.Session

open Checked Outcome PacketBuilder SessionInner

variable {T : Type} {tx tx' : Tx T} {s s' s'' : SessionInner T} {docNo i : ℕ} {packets packets' : List PacketBuilder} {doc doc' doc'' : SendDoc}

/-- A packet has byte `k` of a document. -/
def CarriesByte (packets : List PacketBuilder) (docNo : ℕ) (doc : SendDoc) (k : ℕ) : Prop :=
  ∃ seg, Carries packets (.seg seg) ∧ seg.docNo = docNo ∧ seg.off ≤ k ∧ k < seg.off + seg.data.length ∧ seg.data[k - seg.off]? = doc.data[k]?

/-- A document from which segments may have been taken, and packets with what was taken. -/
structure Advances (packets : List PacketBuilder) (docNo : ℕ) (doc doc' : SendDoc) : Prop where
  data : doc'.data = doc.data
  off : doc.nextSegOff ≤ doc'.nextSegOff
  bytes : ∀ k, doc.nextSegOff ≤ k → k < doc'.nextSegOff → CarriesByte packets docNo doc k

lemma Advances.refl (packets : List PacketBuilder) (docNo : ℕ) (doc : SendDoc) : Advances packets docNo doc doc :=
  ⟨rfl, le_rfl, fun _ hk hlt => absurd hlt (not_lt.mpr hk)⟩

lemma Advances.trans (h : Advances packets docNo doc doc') (h' : Advances packets' docNo doc' doc'')
    (hp : ∀ f, Carries packets f → Carries packets' f) : Advances packets' docNo doc doc'' := by
  refine ⟨h'.data.trans h.data, h.off.trans h'.off, fun k hk hlt => ?_⟩
  by_cases hmid : k < doc'.nextSegOff
  · obtain ⟨seg, hseg, hrest⟩ := h.bytes k hk hmid
    exact ⟨seg, hp _ hseg, hrest⟩
  · have hbyte := h'.bytes k (not_lt.mp hmid) hlt
    rwa [CarriesByte, h'.data.symm.trans h'.data, h.data] at hbyte

lemma Segment.Next.advances {cap : ℕ} {seg : Segment} (h : Segment.Next docNo doc cap seg doc') (hp : Carries packets (.seg seg)) :
    Advances packets docNo doc doc' := by
  have hoff : doc'.nextSegOff = doc.nextSegOff + seg.data.length := congrArg SendDoc.nextSegOff h.left
  have hdata : doc'.data = doc.data := by rw [h.left]
  refine ⟨hdata, hoff ▸ Nat.le_add_right _ _, fun k hk hlt => ⟨seg, hp, h.docNo, h.off.trans_le hk, ?_, ?_⟩⟩
  · rw [h.off, ← hoff]
    exact hlt
  · rw [h.data, h.off, List.getElem?_drop, Nat.add_sub_cancel' hk, List.getElem?_take_of_lt (hoff ▸ hlt)]

/-- The same documents are in the slots, and whatever was taken from them is in the packets. -/
structure Sends (s s' : SessionInner T) (packets : List PacketBuilder) : Prop where
  mtu : s'.mtu = s.mtu
  side : s'.isInitiator = s.isInitiator
  length : s'.sendTable.length = s.sendTable.length
  slot : ∀ (i : ℕ) (e : SendDocMutable), s.sendTable[i]? = some e →
    ∃ e' : SendDocMutable, s'.sendTable[i]? = some e' ∧ e'.docNo = e.docNo ∧ Option.Rel (Advances packets e.docNo) e.doc e'.doc

lemma rel_refl (packets : List PacketBuilder) (docNo : ℕ) : ∀ o : Option SendDoc, Option.Rel (Advances packets docNo) o o
  | none => .none
  | some doc => .some (.refl packets docNo doc)

lemma rel_trans {a b c : Option SendDoc} (h : Option.Rel (Advances packets docNo) a b) (h' : Option.Rel (Advances packets' docNo) b c)
    (hp : ∀ f, Carries packets f → Carries packets' f) : Option.Rel (Advances packets' docNo) a c := by
  cases h with
  | none => exact h'
  | some h =>
    cases h' with
    | some h' => exact .some (h.trans h' hp)

lemma Sends.refl (s : SessionInner T) (packets : List PacketBuilder) : Sends s s packets :=
  ⟨rfl, rfl, rfl, fun _ e he => ⟨e, he, rfl, rel_refl packets e.docNo e.doc⟩⟩

lemma Sends.trans (h : Sends s s' packets) (h' : Sends s' s'' packets') (hp : ∀ f, Carries packets f → Carries packets' f) :
    Sends s s'' packets' := by
  refine ⟨h'.mtu.trans h.mtu, h'.side.trans h.side, h'.length.trans h.length, fun i e he => ?_⟩
  obtain ⟨e', he', hno, hdoc⟩ := h.slot i e he
  obtain ⟨e'', he'', hno', hdoc'⟩ := h'.slot i e' he'
  exact ⟨e'', he'', hno'.trans hno, rel_trans hdoc (hno ▸ hdoc') hp⟩

lemma Sends.set {e e' : SendDocMutable} (he : s.sendTable[i]? = some e) (hno : e'.docNo = e.docNo)
    (hdoc : Option.Rel (Advances packets e.docNo) e.doc e'.doc) : Sends s (s.setSend i e') packets := by
  refine ⟨rfl, rfl, List.length_set, fun j x hx => ?_⟩
  by_cases hj : i = j
  · subst hj
    cases he.symm.trans hx
    exact ⟨e', List.getElem?_set_self (List.getElem?_eq_some_iff.mp he).1, hno, hdoc⟩
  · exact ⟨x, (List.getElem?_set_ne hj).trans hx, rfl, rel_refl packets x.docNo x.doc⟩

/-- Data of the document is taken, if its slot has it with data left. -/
def Attended (s s' : SessionInner T) (docNo : ℕ) : Prop :=
  s.isSending docNo → ∀ (e : SendDocMutable) (doc : SendDoc), s.sendTable[s.sendIdx docNo]? = some e → e.docNo = docNo → e.doc = some doc →
    doc.nextSegOff < doc.data.length → ∃ (e' : SendDocMutable) (doc' : SendDoc), s'.sendTable[s.sendIdx docNo]? = some e' ∧ e'.doc = some doc' ∧
      doc.nextSegOff < doc'.nextSegOff

lemma Sends.advances (h : Sends s s' packets) {e : SendDocMutable} (he : s.sendTable[i]? = some e) (hdoc : e.doc = some doc) :
    ∃ (e' : SendDocMutable) (doc' : SendDoc), s'.sendTable[i]? = some e' ∧ e'.docNo = e.docNo ∧ e'.doc = some doc' ∧ Advances packets e.docNo doc doc' := by
  obtain ⟨e', he', hno, hrel⟩ := h.slot i e he
  rw [hdoc] at hrel
  generalize hdoc' : e'.doc = o at hrel
  cases hrel with
  | some hadv => exact ⟨e', _, he', hno, hdoc', hadv⟩

lemma Sends.origin (h : Sends s s' packets) {e' : SendDocMutable} (he' : s'.sendTable[i]? = some e') (hdoc' : e'.doc = some doc') :
    ∃ (e : SendDocMutable) (doc : SendDoc), s.sendTable[i]? = some e ∧ e.docNo = e'.docNo ∧ e.doc = some doc ∧ Advances packets e.docNo doc doc' := by
  have hi : i < s.sendTable.length := h.length ▸ (List.getElem?_eq_some_iff.mp he').1
  obtain ⟨x, hx, hno, hrel⟩ := h.slot i _ (List.getElem?_eq_getElem hi)
  cases he'.symm.trans hx
  rw [hdoc'] at hrel
  generalize hdoc : (s.sendTable[i]).doc = o at hrel
  cases hrel with
  | some hadv => exact ⟨_, _, List.getElem?_eq_getElem hi, hno.symm, hdoc, hadv⟩

lemma Attended.later (h : Attended s s' docNo) (hs : Sends s' s'' packets) : Attended s s'' docNo := by
  intro hside e doc he hno hdoc hleft
  obtain ⟨e', doc', he', hdoc', hlt⟩ := h hside e doc he hno hdoc hleft
  obtain ⟨e'', doc'', he'', -, hdoc'', hadv⟩ := hs.advances he' hdoc'
  exact ⟨e'', doc'', he'', hdoc'', hlt.trans_le hadv.off⟩

lemma Attended.earlier (h : Attended s' s'' docNo) (hs : Sends s s' packets) (hs' : Sends s' s'' packets') : Attended s s'' docNo := by
  have hidx : s'.sendIdx docNo = s.sendIdx docNo := congrArg ((docNo >>> 1) % ·) hs.length
  intro hside e doc he hno hdoc hleft
  obtain ⟨e', doc', he', hno', hdoc', hadv⟩ := hs.advances he hdoc
  by_cases hleft' : doc'.nextSegOff < doc'.data.length
  · have hside' : s'.isSending docNo := by rwa [isSending, hs.side]
    obtain ⟨e'', doc'', he'', hdoc'', hlt⟩ := h hside' e' doc' (hidx ▸ he') (hno'.trans hno) hdoc' hleft'
    exact ⟨e'', doc'', hidx ▸ he'', hdoc'', hadv.off.trans_lt hlt⟩
  · obtain ⟨e'', doc'', he'', -, hdoc'', hadv'⟩ := hs'.advances he' hdoc'
    refine ⟨e'', doc'', he'', hdoc'', lt_of_lt_of_le ?_ hadv'.off⟩
    rw [← hadv.data] at hleft
    exact hleft.trans_le (not_lt.mp hleft')

/-- Every document is one that memory has room for. -/
def SessionInner.DocsFit (s : SessionInner T) : Prop := ∀ e ∈ s.sendTable, ∀ d ∈ e.doc, d.data.length < 2 ^ 64

lemma Sends.docsFit (h : Sends s s' packets) (hs : s.DocsFit) : s'.DocsFit := by
  intro e' he' d hd
  obtain ⟨i, he'⟩ := List.mem_iff_getElem?.mp he'
  obtain ⟨e, doc, he, -, hdoc, hadv⟩ := h.origin he' hd
  rw [hadv.data]
  exact hs e (List.mem_of_getElem? he) doc hdoc

/-- What a pass has done that has taken the numbers `popped` out of the queue. -/
structure Served (tx : Tx T) (popped : List ℕ) (s : SessionInner T) (packets : List PacketBuilder) : Prop where
  sends : Sends tx.session s packets
  kept : ∀ f, Carries tx.packets f → Carries packets f
  attended : 57 ≤ tx.session.mtu → ∀ docNo ∈ popped, Attended tx.session s docNo

lemma Served.trans {popped : List ℕ} (h : Served tx [docNo] tx'.session tx'.packets) (h' : Served tx' popped s packets) :
    Served tx (docNo :: popped) s packets := by
  refine ⟨h.sends.trans h'.sends h'.kept, fun f hf => h'.kept f (h.kept f hf), fun hmtu no hno => ?_⟩
  rcases List.mem_cons.mp hno with rfl | hno
  · exact (h.attended hmtu no (List.mem_singleton_self no)).later h'.sends
  · exact (h'.attended (h.sends.mtu.symm ▸ hmtu) no hno).earlier h.sends h'.sends

lemma Served.of_queue {popped queue : List ℕ} (h : Served { tx with session := { tx.session with sendQueue := queue } } popped s packets) :
    Served tx popped s packets :=
  ⟨⟨h.sends.mtu, h.sends.side, h.sends.length, h.sends.slot⟩, h.kept, h.attended⟩

/-- The document is served, and the queue is as it was. -/
abbrev Serves (tx : Tx T) (docNo : ℕ) (s : SessionInner T) (packets : List PacketBuilder) : Prop :=
  Served tx [docNo] s packets ∧ s.sendQueue = tx.session.sendQueue

lemma serves_refl (h : 57 ≤ tx.session.mtu → Attended tx.session tx.session docNo) : Serves tx docNo tx.session tx.packets :=
  ⟨⟨.refl _ _, fun _ => id, fun hmtu _ hno => List.mem_singleton.mp hno ▸ h hmtu⟩, rfl⟩

lemma Serves.of_emit (hs : tx'.session = tx.session) (hp : ∀ p ∈ tx.packets, p ∈ tx'.packets) (h : Serves tx' docNo s packets) :
    Serves tx docNo s packets := by
  obtain ⟨⟨hsends, hkept, hattended⟩, hqueue⟩ := h
  rw [hs] at hsends hattended hqueue
  exact ⟨⟨hsends, fun f ⟨p, hmem, hf⟩ => hkept f ⟨p, hp p hmem, hf⟩, hattended⟩, hqueue⟩

section Document

variable {e : SendDocMutable} {seg : Segment} {cap : ℕ}

lemma leads_serveSeg (he : tx.session.sendTable[i]? = some e) (hi : i = tx.session.sendIdx docNo) (hno : e.docNo = docNo) (hdoc : e.doc = some doc)
    (hnext : Segment.Next docNo doc cap seg doc') : Leads (Serves tx docNo) (sendSeg tx i e seg doc') := by
  subst hi
  rw [sendSeg]
  apply leads_appendSeg
  intro packets hput
  refine ⟨⟨.set he rfl ?_, hput.kept, fun _ no hmem _ x d hx _ hd _ => ?_⟩, rfl⟩
  · rw [hdoc, hno]
    exact .some (hnext.advances hput.new)
  · obtain rfl := List.mem_singleton.mp hmem
    cases he.symm.trans hx
    cases hdoc.symm.trans hd
    refine ⟨{ e with doc := some doc', needsSendClose := false }, doc', List.getElem?_set_self (List.getElem?_eq_some_iff.mp he).1, rfl, ?_⟩
    rw [hnext.left]
    exact Nat.lt_add_of_pos_right hnext.nonempty

lemma leads_serveClose {variant : UInt8} (he : tx.session.sendTable[i]? = some e)
    (hdone : ∀ s : SessionInner T, 57 ≤ tx.session.mtu → Attended tx.session s docNo) :
    Leads (Serves tx docNo) (sendClose tx i docNo e variant) := by
  rw [sendClose]
  split_ifs
  · apply leads_appendControl
    intro packets hput
    exact ⟨⟨.set he rfl (rel_refl _ _ _), hput.kept, fun hmtu no hno => List.mem_singleton.mp hno ▸ hdone _ hmtu⟩, rfl⟩
  · exact serves_refl (hdone _)

lemma attended_of_done (he : tx.session.sendTable[tx.session.sendIdx docNo]? = some e) (hdone : ∀ doc, e.doc = some doc → doc.data.length ≤ doc.nextSegOff)
    (s : SessionInner T) : Attended tx.session s docNo := by
  intro _ x doc hx _ hdoc hleft
  cases he.symm.trans hx
  exact absurd hleft (not_lt.mpr (hdone doc hdoc))

lemma leads_serveRetry (hdocs : tx.session.DocsFit) (hnew : tx.packet = .new tx.session.mtu) (he : tx.session.sendTable[i]? = some e)
    (hi : i = tx.session.sendIdx docNo) (hno : e.docNo = docNo) : Leads (Serves tx docNo) (sendRetry tx i docNo) := by
  have hmem := List.mem_of_getElem? he
  rw [sendRetry]
  apply (ends_entryAt trivial).bind
  intro x hx
  cases he.symm.trans hx
  split
  · rename_i doc hdoc
    have hlen := hdocs e hmem doc hdoc
    apply (ends_remainingCap fun _ _ => trivial).and_eq.bind
    rintro cap ⟨-, hcap⟩
    apply (Segment.ends_tryNew fun _ _ => trivial).and_eq.bind
    rintro (full | ⟨seg, doc'⟩) ⟨-, htry⟩
    · rw [hnew] at hcap
      obtain rfl := remainingCap_new hcap
      refine serves_refl fun hmtu => attended_of_done (hi ▸ he) (fun d hd => ?_) _
      cases hdoc.symm.trans hd
      exact le_of_tryNew_error hmtu hlen htry
    · exact leads_serveSeg he hi hno hdoc (Segment.tryNew_next hlen htry)
  · rename_i hdoc
    exact leads_serveClose he fun s _ => attended_of_done (hi ▸ he) (fun d hd => by rw [hdoc] at hd; cases hd) s

/-- The document is served, or goes back into the queue because there is neither room nor budget for it. -/
abbrev ServesOrReturns (tx : Tx T) (docNo : ℕ) (x : Outcome (Sent T) (Tx T)) : Prop :=
  Ends (fun _ => True) (fun out => Serves tx docNo out.session out.packets ∨
    out.session = { tx.session with sendQueue := docNo :: tx.session.sendQueue } ∧ ∀ p ∈ tx.packets, p ∈ out.packets)
    (fun tx' => Serves tx docNo tx'.session tx'.packets) x

lemma servesOrReturns {x : Outcome (Sent T) (Tx T)} (h : Leads (Serves tx docNo) x) : ServesOrReturns tx docNo x :=
  h.imp (fun _ => .inl) fun _ => id

lemma ends_serveSending (hdocs : tx.session.DocsFit) : ServesOrReturns tx docNo (sendSending tx docNo) := by
  rw [sendSending]
  apply (ends_slot trivial).bind
  rintro i rfl
  apply (ends_entryAt trivial).bind
  intro e he
  have hmem := List.mem_of_getElem? he
  split
  · rename_i hne
    refine serves_refl fun _ _ x doc hx hno => absurd hno ?_
    cases he.symm.trans hx
    exact hne
  rename_i hno
  have hno : e.docNo = docNo := not_not.mp hno
  split
  · rename_i doc hdoc
    have hlen := hdocs e hmem doc hdoc
    apply (ends_remainingCap fun _ _ => trivial).bind
    intro cap _
    apply (Segment.ends_tryNew fun _ _ => trivial).and_eq.bind
    rintro ((_ | _) | ⟨seg, doc'⟩) ⟨-, htry⟩
    · refine servesOrReturns (leads_serveClose he fun s _ => attended_of_done he (fun d hd => ?_) s)
      cases hdoc.symm.trans hd
      rcases (Segment.tryNew_eq_error hlen).mp htry with ⟨-, hle⟩ | ⟨h, -⟩
      · exact hle
      · cases h
    · apply leads_emit.bind_imp
      · rintro out ⟨hs, hp⟩
        exact .inr ⟨hs, fun p hmem => hp ▸ hmem⟩
      · rintro tx' ⟨hs, hnew, hp⟩
        have hretry : Leads (Serves tx' docNo) (sendRetry tx' (tx.session.sendIdx docNo) docNo) :=
          leads_serveRetry (hs ▸ hdocs) (hs ▸ hnew) (hs ▸ he) (by rw [hs]) hno
        have hmem : ∀ p ∈ tx.packets, p ∈ tx'.packets := fun p h => hp ▸ List.mem_append_left _ h
        exact servesOrReturns (hretry.imp (fun _ h => h.of_emit hs hmem) fun _ h => h.of_emit hs hmem)
    · exact servesOrReturns (leads_serveSeg he rfl hno hdoc (Segment.tryNew_next hlen htry))
  · rename_i hdoc
    exact servesOrReturns (leads_serveClose he fun s _ => attended_of_done he (fun d hd => by rw [hdoc] at hd; cases hd) s)

lemma leads_serveReceiving (hside : ¬ tx.session.isSending docNo) : Leads (Serves tx docNo) (sendReceiving tx docNo) := by
  rw [sendReceiving]
  apply (ends_slot trivial).bind
  intro i _
  apply (ends_entryAt trivial).bind
  intro e _
  split
  · exact serves_refl fun _ h => absurd h hside
  · apply leads_appendControl
    intro packets hput
    refine ⟨⟨⟨rfl, rfl, rfl, (Sends.refl tx.session packets).slot⟩, hput.kept, fun _ no hno h => absurd h ?_⟩, rfl⟩
    rw [List.mem_singleton.mp hno]
    exact hside

lemma ends_serveDoc (hdocs : tx.session.DocsFit) : ServesOrReturns tx docNo (sendDoc tx docNo) := by
  rw [sendDoc]
  split_ifs with hside
  · exact ends_serveSending hdocs
  · exact servesOrReturns (leads_serveReceiving hside)

lemma leads_sendDocs {docs : List ℕ} (hdocs : tx.session.DocsFit) (hqueue : tx.session.sendQueue = docs) :
    Leads (fun s packets => ∃ k, s.sendQueue = docs.drop k ∧ Served tx (docs.take k) s packets) (sendDocs docs tx) := by
  induction docs generalizing tx with
  | nil => exact ⟨0, hqueue, .refl _ _, fun _ => id, fun _ _ h => absurd h List.not_mem_nil⟩
  | cons docNo docs ih =>
    have hdoc : ServesOrReturns { tx with session := { tx.session with sendQueue := docs } } docNo (sendDoc _ docNo) := ends_serveDoc hdocs
    apply hdoc.bind_imp
    · rintro out (⟨hserved, hrest⟩ | ⟨hs, hp⟩)
      · exact ⟨1, hrest, hserved.of_queue⟩
      · rw [hs]
        refine ⟨0, rfl, ⟨rfl, rfl, rfl, (Sends.refl tx.session _).slot⟩, ?_, fun _ _ h => absurd h List.not_mem_nil⟩
        exact fun f ⟨p, hmem, hf⟩ => ⟨p, hp p hmem, hf⟩
    · rintro tx' ⟨hserved, hrest⟩
      apply (ih (hserved.sends.docsFit hdocs) hrest).imp
      · rintro out ⟨k, hk, h⟩
        exact ⟨k + 1, hk, (hserved.trans h).of_queue⟩
      · rintro tx'' ⟨k, hk, h⟩
        exact ⟨k + 1, hk, (hserved.trans h).of_queue⟩

end Document

section Pass

/-- What says which documents are still to be sent. -/
def SessionInner.plan (s : SessionInner T) : ℕ × Bool × List SendDocMutable × List ℕ := (s.mtu, s.isInitiator, s.sendTable, s.sendQueue)

lemma apart_plan (s : SessionInner T) : Apart (fun s' : SessionInner T => s'.plan = s.plan) :=
  ⟨fun _ _ _ h => h, fun _ _ h => h, fun _ _ _ h => h⟩

lemma Sends.of_plan (h : s'.plan = s.plan) (packets : List PacketBuilder) : Sends s s' packets := by
  have htable : s'.sendTable = s.sendTable := congrArg (fun x => x.2.2.1) h
  refine ⟨congrArg Prod.fst h, congrArg (fun x => x.2.1) h, congrArg List.length htable, ?_⟩
  rw [htable]
  exact (Sends.refl s packets).slot

/-- What a whole pass has done, of which `k` numbers of the queue are the first part. -/
structure Transmits (s : SessionInner T) (k : ℕ) (s' : SessionInner T) (packets : List PacketBuilder) : Prop where
  queue : s'.sendQueue = s.sendQueue.drop k
  sends : Sends s s' packets
  attended : 57 ≤ s.mtu → ∀ docNo ∈ s.sendQueue.take k, Attended s s' docNo

lemma Transmits.of_plan (h : s'.plan = s.plan) (packets : List PacketBuilder) : Transmits s 0 s' packets :=
  ⟨congrArg (fun x => x.2.2.2) h, .of_plan h packets, fun _ _ hno => absurd hno List.not_mem_nil⟩

lemma Transmits.then {k : ℕ} (h : Transmits s k s' packets) (hs : s''.plan = s'.plan) : Transmits s k s'' packets :=
  ⟨(congrArg (fun x => x.2.2.2) hs).trans h.queue, h.sends.trans (.of_plan hs packets) fun _ => id,
    fun hmtu no hno => (h.attended hmtu no hno).later (.of_plan hs packets)⟩

lemma Served.transmits {k : ℕ} (h : Served tx (tx.session.sendQueue.take k) s' packets) (hk : s'.sendQueue = tx.session.sendQueue.drop k)
    (hs : tx.session.plan = s.plan) : Transmits s k s' packets := by
  have hqueue : tx.session.sendQueue = s.sendQueue := congrArg (fun x => x.2.2.2) hs
  have hstart : Sends s tx.session [] := .of_plan hs []
  rw [hqueue] at h hk
  refine ⟨hk, hstart.trans h.sends ?_, fun hmtu no hno => (h.attended (hstart.mtu.symm ▸ hmtu) no hno).earlier hstart h.sends⟩
  rintro f ⟨p, hp, -⟩
  exact absurd hp List.not_mem_nil

lemma ends_finish_plan {pass : Pass T} (hbuf : tx.packet.buf ≠ []) :
    Ends (fun _ => True) (fun _ => False) (fun out => out.session.plan = tx.session.plan ∧ out.packets = tx.packets) (finish tx pass) := by
  have hempty : ¬ tx.packet.isEmpty = true := fun h => hbuf (List.isEmpty_iff.mp h)
  rw [finish, if_neg hempty, sendNow, bind_assoc]
  apply (ends_encryptPacket any_panic).bind
  rintro ⟨uid, datagram⟩ -
  exact ⟨rfl, rfl⟩

/-- No data of the document is left to be taken from its slot. -/
def SessionInner.Segmented (s : SessionInner T) (docNo : ℕ) : Prop :=
  ∀ (e : SendDocMutable) (doc : SendDoc), s.sendTable[s.sendIdx docNo]? = some e → e.docNo = docNo → e.doc = some doc → doc.data.length ≤ doc.nextSegOff

variable [LT T] [DecidableLT T] {pass : Pass T} {out : Sent T}

lemma ends_runPass_plan (hdocs : s.DocsFit) : Ends (fun _ => True) (fun out => ∃ k, Transmits s k out.session out.packets)
    (fun out => ∃ k, Transmits s k out.session out.packets) (runPass s pass) := by
  rw [runPass]
  apply ((apart_plan s).appendAcks rfl).and_eq.bind_imp
  · intro out hs
    exact ⟨0, .of_plan hs _⟩
  rintro tx ⟨hs, hacks⟩
  obtain ⟨_, hacked⟩ := (endsAcked any_panic s pass).ok hacks
  apply ((apart_plan s).resendLoop hs).and_eq.bind_imp
  · intro out hs
    exact ⟨0, .of_plan hs _⟩
  rintro tx₁ ⟨hs₁, hresend⟩
  obtain ⟨_, -, hgrow₁⟩ := (ends_resendLoop any_panic).ok hresend
  apply (leads_sendDocs ((Sends.of_plan hs₁ []).docsFit hdocs) rfl).and_eq.bind_imp
  · rintro out ⟨k, hk, hserved⟩
    exact ⟨k, hserved.transmits hk hs₁⟩
  rintro tx₂ ⟨⟨k, hk, hserved⟩, hsend⟩
  obtain ⟨_, -, hgrow₂⟩ := (endsFresh_sendDocs any_panic).ok hsend
  have hsound := hgrow₂.sound (hgrow₁.sound fun p hp => (hacked.packets p hp).sound)
  have hbuf := (hsound tx₂.packet (List.mem_append_right _ List.mem_cons_self)).nonempty
  apply (ends_finish_plan hbuf).imp
  · exact fun _ => False.elim
  · rintro out ⟨hplan, hpackets⟩
    rw [hpackets]
    exact ⟨k, (hserved.transmits hk hs₁).then hplan⟩

lemma transmits {ε : Type} (hdocs : s.DocsFit) (h : (transmit s pass : Outcome ε _) = .ok out) : ∃ k, Transmits s k out.session out.packets := by
  rw [transmit] at h
  split_ifs at h
  · cases h
    exact ⟨0, .of_plan rfl _⟩
  · have hends : Ends (fun _ => True) _ _ (runPass s pass) := ends_runPass_plan hdocs
    rcases hx : runPass s pass with (p | out') | out'
    · rw [hx] at h
      cases h
    · rw [hx] at h
      cases h
      exact hends.err hx
    · rw [hx] at h
      cases h
      exact hends.ok hx

end Pass

end Pqsnet.Session
