import Pqsnet.Checked.Tables
import Pqsnet.Session.Channel
import Pqsnet.Session.Recv

/-! The small steps that every call on a session is made of: what one of them does to the slots, and which
documents the thread has in hand. -/

namespace Pqsnet.Session

open Checked Outcome

/-- A completed document that the application has not taken. -/
inductive Undelivered
  | ready (d : UnfinishedRecvDoc)
  | reply (len : ℕ) (c : UnreleasedChannel)

namespace Undelivered

def docNo : Undelivered → ℕ
  | ready d => d.docNo
  | reply _ c => c.docNo

/-- The length that was announced. -/
def docLen : Undelivered → ℕ
  | ready d => d.docLen
  | reply _ c => c.docLen

/-- The length that is given back. -/
def len : Undelivered → ℕ
  | ready d => d.buf.length
  | reply len _ => len

end Undelivered

def SpecialReplyState.held : SpecialReplyState → Multiset Undelivered
  | .recv len c => {.reply len c}
  | _ => 0

def readyHeld (docs : List UnfinishedRecvDoc) : Multiset Undelivered := docs.map Undelivered.ready

def OpenChannel.held (channel : OpenChannel) : Multiset Undelivered := readyHeld channel.readyDocs + channel.replyBuffer.held

def OpenChannel.addRef (channel : OpenChannel) : OpenChannel := { channel with refCount := channel.refCount + 1 }

/-- What waits in a slot's channel, if it is open. -/
def channelHeld : Option OpenChannel → Multiset Undelivered
  | some channel => channel.held
  | none => 0

def RecvDocMutable.held (entry : RecvDocMutable) : Multiset Undelivered :=
  readyHeld entry.adoptableOrphans + channelHeld entry.channel

def SendDocMutable.held (entry : SendDocMutable) : Multiset Undelivered := channelHeld entry.channel

/-- Whether a document is being received. -/
def RecvDocState.isActive : RecvDocState → Bool
  | activeReserved => true
  | active _ => true
  | _ => false

/-- A document as it leaves its slot. -/
def RecvDoc.completed (doc : RecvDoc) (docNo parentNo : ℕ) (isClosed : Bool) : Undelivered :=
  match doc.mem with
  | .simple buf => .ready ⟨buf, docNo, doc.hasSpecialParent, isClosed, doc.docLen, parentNo⟩
  | .replyBuf _ _ => .reply doc.totalRecv ⟨docNo, doc.hasSpecialParent, isClosed, doc.docLen⟩

/-- A document that is being received. -/
structure RecvDoc.Sane (doc : RecvDoc) : Prop where
  simple : ∀ m, doc.mem = .simple m → m.length = doc.docLen
  words : doc.setSegs.length = (doc.docLen + 63) / 64
  small : ∀ m, doc.mem = .simple m → doc.docLen < 2 ^ 63
  total : doc.totalRecv = (doc.setSegs.map fun x => (ones x).length).sum
  empty : doc.mem.len = 0 → doc.totalRecv = 0

namespace SessionInner

variable {T : Type}

def held (s : SessionInner T) : Multiset Undelivered :=
  (s.recvTable.map RecvDocMutable.held).sum + (s.sendTable.map SendDocMutable.held).sum

/-- The open channel of a document. -/
def channelOf (s : SessionInner T) (docNo : ℕ) : Option OpenChannel :=
  if s.isSending docNo then s.sendTable[s.sendIdx docNo]?.bind fun entry => if entry.docNo = docNo then entry.channel else none
  else s.recvTable[s.recvIdx docNo]?.bind fun entry => if entry.docNo = docNo then entry.channel else none

/-- A document that is sent, or that is not being received any more. -/
def Settled (s : SessionInner T) (docNo : ℕ) : Prop := s.isSending docNo ∨
  ∃ entry, s.recvTable[s.recvIdx docNo]? = some entry ∧ docNo ≤ entry.docNo ∧ (entry.docNo = docNo → ¬ entry.doc.isActive)

/-- Two states that differ in nothing that concerns received documents. -/
structure Same (s s' : SessionInner T) : Prop where
  isInitiator : s'.isInitiator = s.isInitiator
  recvBytesTotal : s'.recvBytesTotal = s.recvBytesTotal
  recvBytesMax : s'.recvBytesMax = s.recvBytesMax
  recvTable : s'.recvTable = s.recvTable
  sendTable : s'.sendTable = s.sendTable
  sendDocNo : s'.sendDocNo = s.sendDocNo ∨ s'.sendDocNo = (s.sendDocNo + 2) % 2 ^ 64
  ledger : s'.ledger = s.ledger

/-- What a thread has in hand: completed documents, and the slot that it reserved with the announced length. -/
structure Hand where
  docs : Multiset Undelivered
  claimed : Option (ℕ × ℕ)

/-- Puts documents into the hand. -/
def Hand.take (h : Hand) (docs : Multiset Undelivered) : Hand := { h with docs := h.docs + docs }

/-- Which of the steps are allowed that not every call makes: to start a document, to write or finish one, to use a reply
buffer, to forget the document in it, and to reject a document that is complete. -/
structure Permits where
  claim : Prop
  write : Prop
  lend : Prop
  lose : Prop
  reject : Prop

inductive Move (P : Permits) : SessionInner T → Hand → SessionInner T → Hand → Prop
  | other {s s' : SessionInner T} {h : Hand} (same : Same s s') : Move P s h s' h
  | flagRecv {s : SessionInner T} {h : Hand} {i : ℕ} {e : RecvDocMutable} (b : Bool) (he : s.recvTable[i]? = some e) :
      Move P s h (s.setRecv i { e with needsSendControl := b }) h
  | flagSend {s : SessionInner T} {h : Hand} {i : ℕ} {e : SendDocMutable} (b : Bool) (doc : Option SendDoc)
      (he : s.sendTable[i]? = some e) : Move P s h (s.setSend i { e with needsSendClose := b, doc := doc }) h
  | claim {s : SessionInner T} {h : Hand} {e : RecvDocMutable} {f : SegFrame} {docLen : ℕ} (hP : P.claim)
      (hh : h.claimed = none) (hs : ¬ s.isSending f.docNo) (he : s.recvTable[s.recvIdx f.docNo]? = some e) (hlt : e.docNo < f.docNo)
      (hmay : s.mayClaim e f.docNo docLen) :
      Move P s h (s.claimSlot (s.recvIdx f.docNo) e f docLen)
        ⟨h.docs + (readyHeld (if f.isClosed then e.adoptableOrphans else []) + channelHeld e.channel),
          some (s.recvIdx f.docNo, docLen)⟩
  | lend {s : SessionInner T} {h : Hand} {docNo : ℕ} {channel : OpenChannel} {range : BufRange} (hP : P.lend)
      (hc : s.channelOf docNo = some channel) (hr : channel.replyBuffer = .awaiting (some range)) :
      Move P s h (s.setChannel docNo (some { channel with replyBuffer := .awaiting none })) h
  | install {s : SessionInner T} {h : Hand} {i : ℕ} {e : RecvDocMutable} {doc : RecvDoc} (hw : P.write)
      (hh : h.claimed = some (i, doc.docLen)) (he : s.recvTable[i]? = some e) (hdoc : doc.Sane)
      (hP : P.lend ∨ ∃ m, doc.mem = .simple m) :
      Move P s h (s.setRecv i { e with doc := .active doc }) { h with claimed := none }
  | write {s : SessionInner T} {h : Hand} {i : ℕ} {e : RecvDocMutable} {doc doc' : RecvDoc} (hw : P.write)
      (he : s.recvTable[i]? = some e) (hdoc : e.doc = .active doc) (hsane : doc'.Sane) (hlen : doc'.docLen = doc.docLen)
      (hmem : (∃ m, doc.mem = .simple m) → ∃ m, doc'.mem = .simple m) :
      Move P s h (s.setRecv i { e with doc := .active doc' }) h
  | closeRemote {s : SessionInner T} {h : Hand} {i : ℕ} {e : RecvDocMutable} (he : s.recvTable[i]? = some e) :
      Move P s h (s.setRecv i { e with channel := none }) (h.take (channelHeld e.channel))
  | finish {s : SessionInner T} {h : Hand} {i parentNo : ℕ} {e : RecvDocMutable} {doc : RecvDoc} (hw : P.write)
      (he : s.recvTable[i]? = some e) (hdoc : e.doc = .active doc) (hlen : doc.totalRecv = doc.mem.len)
      (hP : P.lend ∨ ∃ m, doc.mem = .simple m) :
      Move P s h ({ s with ledger := { s.ledger with completed := s.ledger.completed ++ [e.docNo] } }.setRecv i
          { e with doc := .finishing, channel := e.channel.map OpenChannel.addRef })
        (h.take {doc.completed e.docNo parentNo e.channel.isNone})
  | reject {s : SessionInner T} {h : Hand} {i : ℕ} {e : RecvDocMutable} {doc : RecvDoc} (hw : P.write) (hP : P.reject)
      (he : s.recvTable[i]? = some e) (hdoc : e.doc = .active doc) : Move P s h (s.setRecv i { e with doc := .finishing }) h
  | post {s : SessionInner T} {h : Hand} {d : UnfinishedRecvDoc} {channel : OpenChannel}
      (hc : s.channelOf d.parentNo = some channel) :
      Move P s (h.take {.ready d}) (s.setChannel d.parentNo (some { channel with readyDocs := channel.readyDocs ++ [d] })) h
  | postReply {s : SessionInner T} {h : Hand} {docNo len : ℕ} {c : UnreleasedChannel} {channel : OpenChannel}
      {range : Option BufRange} (hc : s.channelOf docNo = some channel) (hr : channel.replyBuffer = .awaiting range) :
      Move P s (h.take {.reply len c}) (s.setChannel docNo (some { channel with replyBuffer := .recv len c })) h
  | orphan {s : SessionInner T} {h : Hand} {d : UnfinishedRecvDoc} {e : RecvDocMutable}
      (he : s.recvTable[s.recvIdx d.parentNo]? = some e) (hlt : e.docNo < d.parentNo) (hfin : e.doc.slotIsFin)
      (hex : e.orphansExpectedParentNo.all (· = d.parentNo)) :
      Move P s (h.take {.ready d}) (s.setRecv (s.recvIdx d.parentNo) { e with
        orphansExpectedParentNo := some d.parentNo, adoptableOrphans := e.adoptableOrphans ++ [d] }) h
  | release {s : SessionInner T} {h : Hand} (u : Undelivered) :
      Move P s (h.take {u}) { s with
        recvBytesTotal := fetchSub s.recvBytesTotal u.len
        ledger := { s.ledger with released := s.ledger.released ++ [u.docNo] } } h
  | retire {s : SessionInner T} {h : Hand} {docNo : ℕ} {e : RecvDocMutable} (he : s.recvTable[s.recvIdx docNo]? = some e)
      (hno : e.docNo = docNo) (hfin : e.doc.slotIsFin) (hr : docNo ∈ s.ledger.released) :
      Move P s h (s.setRecv (s.recvIdx docNo) { e with doc := .finParentClose, channel := none, needsSendControl := true })
        (h.take (channelHeld e.channel))
  | lose {s : SessionInner T} {h : Hand} {len : ℕ} {c : UnreleasedChannel} (hP : P.lose) :
      Move P s (h.take {.reply len c}) { s with ledger := { s.ledger with lost := s.ledger.lost ++ [c.docNo] } } h
  | deliver {s : SessionInner T} {h : Hand} {docNo : ℕ} {channel : OpenChannel} {docs : List UnfinishedRecvDoc}
      {d : UnfinishedRecvDoc} (hc : s.channelOf docNo = some channel) (hd : channel.readyDocs = docs ++ [d]) :
      Move P s h { s.setChannel docNo (some { channel with readyDocs := docs }) with
        recvBytesTotal := fetchSub s.recvBytesTotal d.buf.length
        ledger := { s.ledger with taken := s.ledger.taken ++ [d.docNo] } } h
  | deliverReply {s : SessionInner T} {h : Hand} {docNo len : ℕ} {c : UnreleasedChannel} {channel : OpenChannel}
      (hc : s.channelOf docNo = some channel) (hr : channel.replyBuffer = .recv len c) :
      Move P s h { s.setChannel docNo (some { channel with replyBuffer := .none }) with
        ledger := { s.ledger with taken := s.ledger.taken ++ [c.docNo] } } h
  | count {s : SessionInner T} {h : Hand} {docNo : ℕ} {channel : OpenChannel} (refCount : ℕ)
      (hc : s.channelOf docNo = some channel) (hsettled : s.Settled docNo) :
      Move P s h (s.setChannel docNo (some { channel with refCount := refCount })) h
  | closeLocal {s : SessionInner T} {h : Hand} {docNo : ℕ} {channel : OpenChannel} (hc : s.channelOf docNo = some channel) :
      Move P s h (s.setChannel docNo none) (h.take channel.held)
  | openChannel {s : SessionInner T} {h : Hand} {i docNo : ℕ} {e : SendDocMutable} {replyBuffer : SpecialReplyState}
      {doc : SendDoc} (he : s.sendTable[i]? = some e) (hnone : e.channel = none) (hr : replyBuffer.held = 0) :
      Move P s h (s.setSend i ⟨docNo, false, some doc, some ⟨1, [], replyBuffer⟩⟩) h

/-- Any number of small steps. -/
inductive Moves (P : Permits) : SessionInner T → Hand → SessionInner T → Hand → Prop
  | refl {s : SessionInner T} {h : Hand} : Moves P s h s h
  | tail {s s' s'' : SessionInner T} {h h' h'' : Hand} (moves : Moves P s h s' h') (move : Move P s' h' s'' h'') :
      Moves P s h s'' h''

variable {s s' s'' : SessionInner T} {P : Permits} {h h' h'' : Hand}

lemma Move.single (hm : Move P s h s' h') : Moves P s h s' h' := .tail .refl hm

lemma Moves.trans (hm : Moves P s h s' h') (hm' : Moves P s' h' s'' h'') : Moves P s h s'' h'' := by
  induction hm' with
  | refl => exact hm
  | tail _ hmove ih => exact .tail (ih hm) hmove

/-- Some more is allowed. -/
def Permits.allowReject (P : Permits) : Permits := { P with reject := True }

lemma Move.allowReject (hm : Move P s h s' h') : Move P.allowReject s h s' h' := by
  cases hm with
  | other same => exact .other same
  | flagRecv b he => exact .flagRecv b he
  | flagSend b doc he => exact .flagSend b doc he
  | claim hP hh hs he hlt hmay => exact .claim hP hh hs he hlt hmay
  | lend hP hc hr => exact .lend hP hc hr
  | install hw hh he hdoc hP => exact .install hw hh he hdoc hP
  | write hw he hdoc hsane hlen hmem => exact .write hw he hdoc hsane hlen hmem
  | closeRemote he => exact .closeRemote he
  | finish hw he hdoc hlen hP => exact .finish hw he hdoc hlen hP
  | reject hw _ he hdoc => exact .reject hw trivial he hdoc
  | post hc => exact .post hc
  | postReply hc hr => exact .postReply hc hr
  | orphan he hlt hfin hex => exact .orphan he hlt hfin hex
  | release u => exact .release u
  | retire he hno hfin hr => exact .retire he hno hfin hr
  | lose hP => exact .lose hP
  | deliver hc hd => exact .deliver hc hd
  | deliverReply hc hr => exact .deliverReply hc hr
  | count n hc hsettled => exact .count n hc hsettled
  | closeLocal hc => exact .closeLocal hc
  | openChannel he hnone hr => exact .openChannel he hnone hr

lemma Moves.allowReject (hm : Moves P s h s' h') : Moves P.allowReject s h s' h' := by
  induction hm with
  | refl => exact .refl
  | tail _ hmove ih => exact ih.tail hmove.allowReject

lemma Hand.take_take (h : Hand) (a b : Multiset Undelivered) : (h.take a).take b = h.take (a + b) := by
  rw [take, take, take, add_assoc]

@[simp] lemma Hand.take_zero (h : Hand) : h.take 0 = h := by
  rw [take, add_zero]

lemma Hand.take_cons (h : Hand) (u : Undelivered) (us : List Undelivered) :
    h.take (u :: us : List Undelivered) = (h.take us).take {u} := by
  rw [take_take, ← Multiset.cons_coe, add_comm, Multiset.singleton_add]

lemma Hand.take_more (h : Hand) (a docs : Multiset Undelivered) (claimed : Option (ℕ × ℕ)) :
    (⟨(h.take a).docs + docs, claimed⟩ : Hand) = Hand.take ⟨h.docs + docs, claimed⟩ a := by
  rw [take, take, Hand.mk.injEq]
  exact ⟨add_right_comm _ _ _, rfl⟩

end SessionInner

end Pqsnet.Session
