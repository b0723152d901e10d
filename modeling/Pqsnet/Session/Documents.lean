import Pqsnet.Session.State

/-! Channels of documents, and what becomes of completed documents when the channel they wait in is closed. -/

namespace Pqsnet.Session

open Checked Outcome

def variantControlFinParentClosed : UInt8 := 0x82

namespace SessionInner

variable {T ε α : Type}

/-- What an atomic `fetch_sub` leaves: it wraps around. -/
def fetchSub (a b : ℕ) : ℕ := (a + (2 ^ 64 - b % 2 ^ 64)) % 2 ^ 64

def scheduleSendControl (s : SessionInner T) (variant : UInt8) (docNo : ℕ) : SessionInner T :=
  { s with scheduled := s.scheduled ++ [(variant, docNo)] }

/-- The slot of a document in the table of its side: the number of the document that is in it, and its channel. -/
def channelSlot (s : SessionInner T) (docNo : ℕ) : Outcome ε (ℕ × Option OpenChannel) :=
  if s.isSending docNo then do
    let sendIdx ← slot docNo s.sendTable.length
    let entry ← entryAt s.sendTable sendIdx
    .ok (entry.docNo, entry.channel)
  else do
    let recvIdx ← slot docNo s.recvTable.length
    let entry ← entryAt s.recvTable recvIdx
    .ok (entry.docNo, entry.channel)

/-- The slot of a document, if the table is not empty. -/
def sendIdx (s : SessionInner T) (docNo : ℕ) : ℕ := (docNo >>> 1) % s.sendTable.length

def recvIdx (s : SessionInner T) (docNo : ℕ) : ℕ := (docNo >>> 1) % s.recvTable.length

def modifySend (s : SessionInner T) (docNo : ℕ) (f : SendDocMutable → SendDocMutable) : SessionInner T :=
  { s with sendTable := s.sendTable.modify (s.sendIdx docNo) f }

def modifyRecv (s : SessionInner T) (docNo : ℕ) (f : RecvDocMutable → RecvDocMutable) : SessionInner T :=
  { s with recvTable := s.recvTable.modify (s.recvIdx docNo) f }

/-- Writes the channel in the slot of a document. -/
def setChannel (s : SessionInner T) (docNo : ℕ) (channel : Option OpenChannel) : SessionInner T :=
  if s.isSending docNo then s.modifySend docNo fun entry => { entry with channel := channel }
  else s.modifyRecv docNo fun entry => { entry with channel := channel }

def updateChannel (s : SessionInner T) (docNo : ℕ) (f : OpenChannel → Outcome ε (α × OpenChannel)) :
    Outcome ε (Option α × SessionInner T) := do
  match ← s.channelSlot docNo with
  | (no, some channel) =>
    if no = docNo then
      let (a, channel) ← f channel
      .ok (some a, s.setChannel docNo (some channel))
    else .ok (none, s)
  | (_, none) => .ok (none, s)

/-- The document in a reply buffer that goes with a channel. -/
def lostWith (channel : OpenChannel) : List ℕ :=
  match channel.replyBuffer with
  | .recv _ c => [c.docNo]
  | _ => []

/-- Drops a channel whose ready documents were taken out. -/
def lose (s : SessionInner T) (channel : OpenChannel) : SessionInner T :=
  { s with ledger := { s.ledger with lost := s.ledger.lost ++ lostWith channel } }

/-- One turn of the loop of `drop_unfinished_recv_doc`. Also gives what it pushes: the documents that wait in
the channel of the one that is dropped, the last one pushed first. -/
def dropRound (s : SessionInner T) (docNo docLen : ℕ) : Outcome ε (List (ℕ × ℕ) × SessionInner T) := do
  let s := { s with
    recvBytesTotal := fetchSub s.recvBytesTotal docLen
    ledger := { s.ledger with released := s.ledger.released ++ [docNo] } }
  let s := s.scheduleSendControl variantControlFinParentClosed docNo
  let recvIdx ← slot docNo s.recvTable.length
  let entry ← entryAt s.recvTable recvIdx
  if entry.docNo = docNo then
    if s.debugAssertions ∧ !entry.doc.slotIsFin then .panic .assertion
    else
      let s := s.setRecv recvIdx { entry with doc := .finParentClose, channel := none, needsSendControl := true }
      match entry.channel with
      | some channel => .ok (channel.readyDocs.map fun d => (d.docNo, d.buf.length), s.lose channel)
      | none => .ok ([], s)
  else .ok ([], s)

def dropLoop : ℕ → List (ℕ × ℕ) → SessionInner T → Outcome ε (SessionInner T)
  | _, [], s => .ok s
  | 0, _ :: _, _ => .panic .loopBound
  | fuel + 1, (docNo, docLen) :: stack, s => do
    let (pushed, s) ← s.dropRound docNo docLen
    dropLoop fuel (pushed ++ stack) s

/-- How many documents wait in channels of received documents. -/
def waiting (s : SessionInner T) : ℕ := (s.recvTable.map fun entry => (entry.channel.map fun c => c.readyDocs.length).getD 0).sum

def dropUnfinishedRecvDoc (s : SessionInner T) (docNo docLen : ℕ) : Outcome ε (SessionInner T) :=
  dropLoop (s.waiting + 1) [(docNo, docLen)] s

def dropEach : List (ℕ × ℕ) → SessionInner T → Outcome ε (SessionInner T)
  | [], s => .ok s
  | (docNo, docLen) :: rest, s => do
    let s ← s.dropUnfinishedRecvDoc docNo docLen
    dropEach rest s

/-- Documents are popped from the back. -/
def dropClosedChannel (s : SessionInner T) : Option OpenChannel → Outcome ε (SessionInner T)
  | some channel => do
    let s ← dropEach (channel.readyDocs.reverse.map fun d => (d.docNo, d.buf.length)) s
    .ok (s.lose channel)
  | none => .ok s

/-- What `abandon` does before it is left to be written. -/
def abandon (s : SessionInner T) : SessionInner T := { s with sendBytesMax := 0 }

end SessionInner

end Pqsnet.Session
