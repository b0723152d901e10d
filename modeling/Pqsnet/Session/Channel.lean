import Pqsnet.Session.Documents

/-! What the application does with the channels of a session. -/

namespace Pqsnet.Session

open Checked Outcome

variable {T ε : Type}

/-- A handle. The program keeps the two flags in the high bits of the number. -/
structure Channel where
  docNo : ℕ
  hasSpecialParent : Bool
  isClosed : Bool
  deriving DecidableEq

inductive ChannelError
  | closed
  | abandoned
  deriving DecidableEq

inductive TrySendError
  | full
  | closed
  | abandoned
  | tooLarge
  deriving DecidableEq

namespace Channel

open SessionInner

def checkBasic (c : Channel) (s : SessionInner T) : Except ChannelError Unit :=
  if s.sendBytesMax > 0 then if c.isClosed then .error .closed else .ok () else .error .abandoned

/-- Takes the last document that is ready; the channel may be closed, or have none. -/
def takeReady (c : Channel) (s : SessionInner T) : Outcome ε (Option (Option UnfinishedRecvDoc) × SessionInner T) := do
  let (doc, s) ← s.updateChannel c.docNo fun channel =>
    .ok (channel.readyDocs.getLast?, { channel with readyDocs := channel.readyDocs.dropLast })
  match doc with
  | some (some d) =>
    let s := { s with
      recvBytesTotal := fetchSub s.recvBytesTotal d.buf.length
      ledger := { s.ledger with taken := s.ledger.taken ++ [d.docNo] } }
    .ok (doc, s.scheduleSendControl variantControlFin d.docNo)
  | _ => .ok (doc, s)

/-- A document that is handed to the application, with its channel. -/
def delivered (d : UnfinishedRecvDoc) : List (Option UInt8) × Channel := (d.buf, ⟨d.docNo, d.hasSpecialParent, d.isClosed⟩)

def tryRecv (c : Channel) (s : SessionInner T) :
    Outcome ε (Except ChannelError (Option (List (Option UInt8) × Channel)) × SessionInner T) :=
  match c.checkBasic s with
  | .error e => .ok (.error e, s)
  | .ok () => do
    match ← c.takeReady s with
    | (none, s) => .ok (.error .closed, s)
    | (some doc, s) => .ok (.ok (doc.map delivered), s)

/-- `RecvFuture::poll`; `none` stands for pending. -/
def pollRecv (c : Channel) (s : SessionInner T) :
    Outcome ε (Option (Except ChannelError (List (Option UInt8) × Channel)) × SessionInner T) :=
  match c.checkBasic s with
  | .error e => .ok (some (.error e), s)
  | .ok () => do
    match ← c.takeReady s with
    | (none, s) => .ok (some (.error .closed), s)
    | (some doc, s) => .ok (doc.map fun d => .ok (delivered d), s)

/-- Fills the first free slot of the send table from number `sendDocNo` on. The numbers may wrap around once while every
slot is looked at. -/
def sendSlot (c : Channel) (doc : Bytes) (replyBuffer : SpecialReplyState) :
    ℕ → SessionInner T → Outcome ε (Channel × SessionInner T)
  | 0, _ => .panic .loopBound
  | fuel + 1, s => do
    let docNo := s.sendDocNo
    let s := { s with sendDocNo := (docNo + 2) % 2 ^ 64 }
    let sendIdx ← slot docNo s.sendTable.length
    let entry ← entryAt s.sendTable sendIdx
    if entry.channel.isSome ∨ entry.doc.isSome then c.sendSlot doc replyBuffer fuel s
    else
      .ok (⟨docNo, false, false⟩, s.setSend sendIdx {
        docNo := docNo
        needsSendClose := false
        doc := some ⟨docNo, c.hasSpecialParent, false, 0, doc⟩
        channel := some ⟨1, [], replyBuffer⟩ })

/-- The limits are updated before they are checked, and not always put back. A document that is not sent is given back. -/
def trySendAny (c : Channel) (doc : Bytes) (replyBuffer : SpecialReplyState) (s : SessionInner T) :
    Outcome ε (Except (TrySendError × Bytes) Channel × SessionInner T) := do
  let sendTotal ← add s.sendTotal 1
  if sendTotal ≥ s.sendTable.length then .ok (.error (.full, doc), s)
  else
    let s := { s with sendTotal := sendTotal }
    if s.sendBytesMax = 0 then .ok (.error (.abandoned, doc), s)
    else if doc.length ≥ s.sendBytesMax then .ok (.error (.tooLarge, doc), s)
    else
      let sendBytesTotal ← add s.sendBytesTotal doc.length
      if sendBytesTotal ≥ s.sendBytesMax then .ok (.error (.full, doc), { s with sendTotal := fetchSub s.sendTotal 1 })
      else
        let s := { s with sendBytesTotal := sendBytesTotal }
        let (channel, s) ← c.sendSlot doc replyBuffer (2 * s.sendTable.length) s
        .ok (.ok channel, s)

def trySend (c : Channel) (doc : Bytes) (s : SessionInner T) :
    Outcome ε (Except (TrySendError × Bytes) Channel × SessionInner T) :=
  c.trySendAny doc .none s

/-- Marks that the close of a document's channel has to be sent. -/
def markClose (c : Channel) (s : SessionInner T) : SessionInner T :=
  if s.isSending c.docNo then s.modifySend c.docNo fun entry => { entry with needsSendClose := true }
  else s.modifyRecv c.docNo fun entry => { entry with needsSendControl := true }

def closeIfInner (c : Channel) (f : OpenChannel → Outcome ε (Bool × OpenChannel)) (s : SessionInner T) :
    Outcome ε (Except ChannelError Unit × SessionInner T) := do
  match ← s.channelSlot c.docNo with
  | (no, some channel) =>
    if no = c.docNo then
      let (close, channel) ← f channel
      if close then
        let s := (c.markClose (s.setChannel c.docNo none)).scheduleSendControl variantControlClose c.docNo
        let s ← s.dropClosedChannel (some channel)
        .ok (.ok (), s)
      else .ok (.error .closed, s.setChannel c.docNo (some channel))
    else .ok (.error .closed, s)
  | (_, none) => .ok (.error .closed, s)

/-- `b` is what the function answers that the application hands to it. -/
def closeIf (c : Channel) (b : Bool) (s : SessionInner T) : Outcome ε (Except ChannelError Unit × SessionInner T) :=
  match c.checkBasic s with
  | .error e => .ok (.error e, s)
  | .ok () => c.closeIfInner (fun channel => .ok (b, channel)) s

def close (c : Channel) (s : SessionInner T) : Outcome ε (Except ChannelError Unit × SessionInner T) := c.closeIf true s

def clone (c : Channel) (s : SessionInner T) : Outcome ε (Channel × SessionInner T) := do
  let (_, s) ← s.updateChannel c.docNo fun channel => do
    let refCount ← add channel.refCount 1
    .ok ((), { channel with refCount := refCount })
  .ok (c, s)

def drop (c : Channel) (s : SessionInner T) : Outcome ε (SessionInner T) := do
  let (_, s) ← c.closeIfInner (fun channel => do
    let refCount ← sub channel.refCount 1
    .ok (refCount = 0, { channel with refCount := refCount })) s
  .ok s

end Channel

inductive SendError
  | closed
  | abandoned
  | tooLarge
  deriving DecidableEq

/-- The future of `send`. It has no document while it is polled, and none after it is done. -/
structure SendFuture where
  channel : Channel
  doc : Option Bytes
  hasWaited : Bool
  deriving DecidableEq

namespace SendFuture

/-- `none` stands for pending. The wakers are left out. -/
def poll (fut : SendFuture) (s : SessionInner T) :
    Outcome ε (Option (Except (SendError × Bytes) Channel) × SendFuture × SessionInner T) := do
  let doc ← unwrap fut.doc
  let fut := { fut with doc := none }
  match ← fut.channel.trySend doc s with
  | (.ok channel, s) => .ok (some (.ok channel), fut, s)
  | (.error (.full, doc), s) => .ok (none, { fut with doc := some doc, hasWaited := true }, s)
  | (.error (.closed, doc), s) => .ok (some (.error (.closed, doc)), fut, s)
  | (.error (.abandoned, doc), s) => .ok (some (.error (.abandoned, doc)), fut, s)
  | (.error (.tooLarge, doc), s) => .ok (some (.error (.tooLarge, doc)), fut, s)

end SendFuture

inductive SendReplyState
  | sending (doc : Bytes)
  | sent (channel : Channel)
  deriving DecidableEq

/-- The future of `send_with_reply_buffer`. -/
structure SendReplyFuture where
  channel : Channel
  buffer : BufRange
  state : SendReplyState
  deriving DecidableEq

namespace SendReplyFuture

open SessionInner

/-- What a poll found: nothing yet, an error, or the length of the reply and its channel. -/
inductive Polled
  | pending
  | error (e : TrySendError)
  | ready (len : ℕ) (channel : Channel)
  deriving DecidableEq

def pollSending (fut : SendReplyFuture) (doc : Bytes) (s : SessionInner T) :
    Outcome ε (Polled × SendReplyFuture × SessionInner T) := do
  match ← fut.channel.trySendAny doc (.awaiting (some fut.buffer)) s with
  | (.ok channel, s) => .ok (.pending, { fut with state := .sent channel }, s)
  | (.error (.full, doc), s) => .ok (.pending, { fut with state := .sending doc }, s)
  | (.error (e, _), s) => .ok (.error e, fut, s)

/-- The reply is taken out of the channel. Nothing is subtracted from `recv_bytes_total`. -/
def takeReply (channel : OpenChannel) : Polled × OpenChannel :=
  match channel.replyBuffer with
  | .awaiting _ => (.pending, channel)
  | .recv len c => (.ready len ⟨c.docNo, c.hasSpecialParent, c.isClosed⟩, { channel with replyBuffer := .none })
  | .none => (.error .closed, channel)

def pollSent (reply : Channel) (s : SessionInner T) : Outcome ε (Polled × SessionInner T) := do
  match ← s.updateChannel reply.docNo fun channel => .ok (takeReply channel) with
  | (some (.ready len c), s) =>
    .ok (.ready len c, { s with ledger := { s.ledger with taken := s.ledger.taken ++ [c.docNo] } })
  | (some polled, s) => .ok (polled, s)
  | (none, s) => .ok (.error .closed, s)

def poll (fut : SendReplyFuture) (s : SessionInner T) : Outcome ε (Polled × SendReplyFuture × SessionInner T) :=
  match fut.state with
  | .sending doc => fut.pollSending doc s
  | .sent reply => do
    let (polled, s) ← pollSent reply s
    .ok (polled, fut, s)

/-- A future that was sent owns the channel that the reply comes in. -/
def drop (fut : SendReplyFuture) (s : SessionInner T) : Outcome ε (SessionInner T) :=
  match fut.state with
  | .sending _ => .ok s
  | .sent reply => reply.drop s

end SendReplyFuture

end Pqsnet.Session
