import Pqsnet.Session.State

/-! One pass of a session over everything it has to send: acks, packets that timed out, documents. -/

namespace Pqsnet.Session

open Checked Outcome

variable {T : Type}

/-- What one pass takes from outside: the budget that congestion control grants, the time before which a
packet has timed out, the time it sends at, the ciphers of the sockets, and randomness. -/
structure Pass (T : Type) where
  packetBudget : ℕ
  rto : T
  now : T
  encryptInPlace : Sock → Bytes → Bytes × UInt32
  random : ℕ

/-- A pass with a toy cipher. -/
def Pass.small : Pass ℕ where
  packetBudget := 4
  rto := 1
  now := 2
  encryptInPlace := fun _ buf => (buf.map (· ^^^ 1), 9)
  random := 77

/-- What is handed to the route, and the sockets that encrypted it. -/
structure Datagram where
  bytes : Bytes
  sealedBy : List Sock
  deriving DecidableEq

/-- The packets a pass sent: those it queued as work for other threads, and the one it sent itself,
together with its datagram. -/
structure Sent (T : Type) where
  session : SessionInner T
  queued : List PacketBuilder
  sentNow : Option (PacketBuilder × Datagram)

/-- The variables of a pass. -/
structure Tx (T : Type) where
  session : SessionInner T
  queued : List PacketBuilder
  packetBudget : ℕ
  packet : PacketBuilder

namespace Tx

/-- Queues the packet and goes on with a new one. A pass that used up its budget ends here: it does
`last`, and still queues `temp`. -/
def emit (tx : Tx T) (last : SessionInner T → SessionInner T) (temp : Option PacketBuilder) : Outcome (Sent T) (Tx T) := do
  let packetBudget ← sub tx.packetBudget 1
  let queued := tx.queued ++ [tx.packet]
  if packetBudget = 0 then .err ⟨last tx.session, queued ++ temp.toList, none⟩
  else .ok { tx with queued := queued, packetBudget := packetBudget, packet := .new tx.session.mtu }

def emitIf (full : Bool) (tx : Tx T) (last : SessionInner T → SessionInner T) (temp : Option PacketBuilder) :
    Outcome (Sent T) (Tx T) :=
  if full then tx.emit last temp else .ok tx

def appendSeg (tx : Tx T) (seg : Segment) : Outcome (Sent T) (Tx T) := do
  let (full, packet) ← tx.packet.appendSeg seg
  emitIf full { tx with packet := packet } id none

def appendControl (tx : Tx T) (variant : UInt8) (docNo : ℕ) : Outcome (Sent T) (Tx T) := do
  let (full, packet) ← tx.packet.appendControl variant docNo none
  emitIf full { tx with packet := packet } id none

end Tx

namespace SessionInner

def appendAcks : ℕ → List SocketData → Tx T → Outcome (Sent T) (Tx T)
  | _, [], tx => .ok tx
  | i, socketData :: sockets, tx => do
    let (full, packet, acks) ← tx.packet.appendSortedAcks socketData.acks (i > 0) socketData.socket.localId
    let tx ← Tx.emitIf full { tx with packet := packet, session := tx.session.setAcks i acks } id none
    appendAcks (i + 1) sockets tx

section Resend

/-- Sends a segment in as many parts as it takes. `rest` are the frames behind it. -/
def resendSeg (rest : List ElicitingFrame) (temp : Option PacketBuilder) :
    ℕ → Tx T → Segment → Outcome (Sent T) (Tx T)
  | 0, _, _ => .panic .loopBound
  | fuel + 1, tx, seg => do
    let (sendNow, overflowSeg, packet) ← tx.packet.tryAppendSeg seg
    let orphans := (overflowSeg.map ElicitingFrame.seg).toList ++ rest
    let tx ← Tx.emitIf sendNow { tx with packet := packet } (addOrphans orphans) temp
    match overflowSeg with
    | some seg => resendSeg rest temp fuel tx seg
    | none => .ok tx

def resendFrames (temp : Option PacketBuilder) : List ElicitingFrame → Tx T → Outcome (Sent T) (Tx T)
  | [], tx => .ok tx
  | .seg seg :: rest, tx => do
    let tx ← resendSeg rest temp (tx.packetBudget + seg.data.length + 1) tx seg
    resendFrames temp rest tx
  | .control variant docNo label :: rest, tx => do
    let (full, packet) ← tx.packet.appendControl variant docNo label
    let tx ← Tx.emitIf full { tx with packet := packet } (addOrphans rest) temp
    resendFrames temp rest tx

/-- Whether a payload that does not fit into the current packet gets a packet of its own. -/
def ownPacket (tx : Tx T) (resendLen : ℕ) : Outcome (Sent T) Bool := do
  let cap ← tx.packet.remainingCap
  if resendLen > cap then
    let ratio ← resendRatio tx.session.mtu
    .ok (ratio < resendLen && resendLen ≤ tx.session.mtu && tx.packetBudget > 1)
  else .ok false

def resendPayload (tx : Tx T) (payload : SentPayload T) : Outcome (Sent T) (Tx T) := do
  let own ← ownPacket tx payload.resendLen
  if own then
    let temp := tx.packet
    let tx ← resendFrames (some temp) payload.elicitingFrames { tx with packet := .new tx.session.mtu }
    let tx ← tx.emit id (some temp)
    .ok { tx with packet := temp }
  else resendFrames none payload.elicitingFrames tx

variable [LT T] [DecidableLT T]

/-- Pops what has timed out, and gives the last of it that was still unacknowledged. -/
def drainExpired (rto : T) :
    List (SentPayload T) → Finset ℕ → Option (SentPayload T) → List (SentPayload T) × Finset ℕ × Option (SentPayload T)
  | [], unacked, resendPacket => ([], unacked, resendPacket)
  | p :: ps, unacked, resendPacket =>
    if p.sentAt < rto then
      if p.packetUid ∈ unacked then drainExpired rto ps (unacked.erase p.packetUid) (some p)
      else drainExpired rto ps unacked resendPacket
    else (p :: ps, unacked, resendPacket)

def resendLoop (rto : T) : ℕ → Tx T → Outcome (Sent T) (Tx T)
  | 0, _ => .panic .loopBound
  | fuel + 1, tx =>
    let (queue, unacked, resendPacket) := drainExpired rto tx.session.packetQueue tx.session.unackedPackets none
    let tx := { tx with session := { tx.session with packetQueue := queue, unackedPackets := unacked } }
    match resendPacket with
    | none => .ok tx
    | some payload => do
      let tx ← resendPayload tx payload
      resendLoop rto fuel tx

end Resend

section Documents

/-- The slot of a document that is already free. -/
def sendClose (tx : Tx T) (sendIdx docNo : ℕ) (entry : SendDocMutable) (variant : UInt8) : Outcome (Sent T) (Tx T) :=
  if entry.needsSendClose then
    Tx.appendControl { tx with session := tx.session.setSend sendIdx { entry with needsSendClose := false } } variant docNo
  else .ok tx

def sendSeg (tx : Tx T) (sendIdx : ℕ) (entry : SendDocMutable) (seg : Segment) (doc : SendDoc) :
    Outcome (Sent T) (Tx T) :=
  Tx.appendSeg
    { tx with session := tx.session.setSend sendIdx { entry with doc := some doc, needsSendClose := false } } seg

/-- The second attempt at a document, in a packet that is empty. -/
def sendRetry (tx : Tx T) (sendIdx docNo : ℕ) : Outcome (Sent T) (Tx T) := do
  let entry ← entryAt tx.session.sendTable sendIdx
  match entry.doc with
  | some doc =>
    let cap ← tx.packet.remainingCap
    match ← Segment.tryNew docNo doc entry.channel.isNone cap with
    | .ok (seg, doc) => sendSeg tx sendIdx entry seg doc
    | .error _ => .ok tx
  | none => sendClose tx sendIdx docNo entry (variantControlClose ||| variantControlFin)

def sendSending (tx : Tx T) (docNo : ℕ) : Outcome (Sent T) (Tx T) := do
  let sendIdx ← slot docNo tx.session.sendTable.length
  let entry ← entryAt tx.session.sendTable sendIdx
  if entry.docNo ≠ docNo then .ok tx
  else
    match entry.doc with
    | some doc =>
      let cap ← tx.packet.remainingCap
      match ← Segment.tryNew docNo doc entry.channel.isNone cap with
      | .ok (seg, doc) => sendSeg tx sendIdx entry seg doc
      | .error false => sendClose tx sendIdx docNo entry variantControlClose
      | .error true =>
        let tx ← tx.emit (fun s => { s with sendQueue := docNo :: s.sendQueue }) none
        sendRetry tx sendIdx docNo
    | none => sendClose tx sendIdx docNo entry (variantControlClose ||| variantControlFin)

def sendReceiving (tx : Tx T) (docNo : ℕ) : Outcome (Sent T) (Tx T) := do
  let recvIdx ← slot docNo tx.session.recvTable.length
  let entry ← entryAt tx.session.recvTable recvIdx
  if entry.docNo ≠ docNo ∨ !entry.needsSendControl then .ok tx
  else
    let variant := flagIf entry.channel.isNone variantControlClose ||| flagIf entry.doc.slotIsFin variantControlFin
    Tx.appendControl { tx with session := tx.session.setRecv recvIdx { entry with needsSendControl := false } }
      variant docNo

def sendDoc (tx : Tx T) (docNo : ℕ) : Outcome (Sent T) (Tx T) :=
  if tx.session.isSending docNo then sendSending tx docNo else sendReceiving tx docNo

def sendDocs : List ℕ → Tx T → Outcome (Sent T) (Tx T)
  | [], tx => .ok tx
  | docNo :: rest, tx => do
    let tx ← sendDoc { tx with session := { tx.session with sendQueue := rest } } docNo
    sendDocs rest tx

end Documents

/-- The id of a packet that is sent, and its datagram. A packet whose socket is gone goes out as it is. -/
def encryptPacket {ε : Type} (s : SessionInner T) (pass : Pass T) (binding : Option (Bool × UInt32)) (buf : Bytes) :
    Outcome ε (ℕ × Datagram) :=
  match binding with
  | some (socketIdx, socketUid) => do
    let socketData ← entryAt s.sockets.1 socketIdx.toNat
    if socketData.socket.uid = socketUid then
      let (buf, packetNo) := pass.encryptInPlace socketData.socket buf
      .ok (packetNo.toNat ||| socketUid.toNat <<< 32, ⟨buf, [socketData.socket]⟩)
    else .ok (pass.random, ⟨buf, []⟩)
  | none => do
    let socketData ← entryAt s.sockets.1 s.curIdx.toNat
    let (buf, packetNo) := pass.encryptInPlace socketData.socket buf
    .ok (packetNo.toNat ||| socketData.socket.uid.toNat <<< 32, ⟨buf, [socketData.socket]⟩)

def sendNow {ε : Type} (s : SessionInner T) (pass : Pass T) (packet : PacketBuilder) :
    Outcome ε (SessionInner T × Datagram) := do
  let buf := packet.buf ++ List.replicate Protocol.footerLen 0
  let (packetUid, datagram) ← encryptPacket s pass packet.socketBinding buf
  let payload := ⟨packetUid, pass.now, packet.resendLen, packet.elicitingFrames⟩
  .ok ({ s with unackedPackets := insert packetUid s.unackedPackets, packetQueue := s.packetQueue ++ [payload] },
    datagram)

def finish (tx : Tx T) (pass : Pass T) : Outcome (Sent T) (Sent T) :=
  if tx.packet.isEmpty then .ok ⟨tx.session, tx.queued, none⟩
  else do
    let (s, datagram) ← sendNow tx.session pass tx.packet
    .ok ⟨s, tx.queued, some (tx.packet, datagram)⟩

variable [LT T] [DecidableLT T]

def start (s : SessionInner T) (pass : Pass T) : Tx T := ⟨s, [], pass.packetBudget, .new s.mtu⟩

/-- An early return is an error that carries what was done up to there. -/
def runPass (s : SessionInner T) (pass : Pass T) : Outcome (Sent T) (Sent T) := do
  let tx ← appendAcks 0 s.sockets.1 (start s pass)
  let tx ← resendLoop pass.rto (tx.session.packetQueue.length + 1) tx
  let tx ← sendDocs tx.session.sendQueue tx
  finish tx pass

def transmit {ε : Type} (s : SessionInner T) (pass : Pass T) : Outcome ε (Sent T) :=
  if pass.packetBudget = 0 then .ok ⟨s, [], none⟩
  else do
    match ← attempt (runPass s pass) with
    | .ok out => .ok out
    | .error out => .ok out

/-- Whether the frame could be decoded is not looked at. -/
def acknowledged {ε : Type} (s : SessionInner T) (socketUid : UInt32) (variant : UInt8) (packet : Bytes) (i : ℕ) :
    Outcome ε (ℕ × SessionInner T) := do
  let (_, i, acks) ← AckRuns.decode packet (variant = variantAckRun) i
  .ok (i, { s with unackedPackets := acks.foldl (fun u n => u.erase (n.toNat ||| socketUid.toNat <<< 32)) s.unackedPackets })

end SessionInner

end Pqsnet.Session
