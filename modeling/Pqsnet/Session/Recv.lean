import Pqsnet.Checked.BitRuns
import Pqsnet.Session.Documents
import Pqsnet.Session.Segments

/-! What a session does with a segment. -/

namespace Pqsnet.Session

open Checked Outcome

variable {T ε : Type}

namespace DocMem

def len : DocMem → ℕ
  | simple m => m.length
  | replyBuf range _ => range.len

/-- The offset is not looked at for a reply buffer. -/
def write (segOff : ℕ) (seg : Bytes) : DocMem → Outcome ε DocMem
  | simple m => do
    let stop ← add segOff seg.length
    if segOff ≤ stop ∧ stop ≤ m.length then .ok (.simple (m.take segOff ++ seg.map some ++ m.drop stop)) else .panic .slice
  | replyBuf range m =>
    if seg.length < range.len then .ok (.replyBuf range (seg.map some ++ m.drop seg.length)) else .panic .assertion

end DocMem

namespace RecvDoc

/-- How many of the bits in a word were not set before. -/
def checkOverlap (setSegs : List (BitVec 64)) (idx : ℕ) (setBits : BitVec 64) : Outcome ε (ℕ × List (BitVec 64)) :=
  match setSegs[idx]? with
  | some preBits => .ok ((ones (~~~preBits &&& setBits)).length, setSegs.set idx (preBits ||| setBits))
  | none => .panic .index

def checkOverlaps : List (ℕ × BitVec 64) → List (BitVec 64) → Outcome ε (ℕ × List (BitVec 64))
  | [], setSegs => .ok (0, setSegs)
  | (idx, setBits) :: rest, setSegs => do
    let (n, setSegs) ← checkOverlap setSegs idx setBits
    let (m, setSegs) ← checkOverlaps rest setSegs
    .ok (n + m, setSegs)

/-- The words that a segment is marked in, with its bits in each: the first byte of a word is its highest bit. The loop
over the words in the middle ends one too early. -/
def marks (segOff segEnd : ℕ) : Outcome ε (List (ℕ × BitVec 64)) := do
  let segOffIdx := segOff / 64
  let segEndIdx := segEnd / 64
  let segOffSet := BitVec.allOnes 64 >>> (segOff % 64)
  let segEndSet := BitVec.allOnes 64 <<< (64 - segEnd % 64 - 1)
  if segOffIdx = segEndIdx then .ok [(segOffIdx, segOffSet &&& segEndSet)]
  else
    let stop ← sub segEndIdx 1
    let middle := (List.range' (segOffIdx + 1) (stop - (segOffIdx + 1))).map (·, BitVec.allOnes 64)
    .ok ((segOffIdx, segOffSet) :: (middle ++ [(segEndIdx, segEndSet)]))

/-- Whether the document is complete now. -/
def recvDoc (doc : RecvDoc) (segOff : ℕ) (seg : Bytes) : Outcome RecvError (Bool × RecvDoc) :=
  let docLen := doc.mem.len
  if seg.isEmpty then .ok (docLen = 0, doc)
  else do
    let segStop ← add segOff seg.length
    let segEnd ← sub segStop 1
    if segEnd ≥ docLen then .err .invalid
    else
      let ms ← marks segOff segEnd
      let (totalNewBytes, setSegs) ← checkOverlaps ms doc.setSegs
      let totalRecv ← add doc.totalRecv totalNewBytes
      let mem ← doc.mem.write segOff seg
      .ok (totalRecv = docLen, { doc with setSegs := setSegs, totalRecv := totalRecv, mem := mem })

/-- Memory for a document, in the reply buffer if there is one. -/
def alloc (docLen : ℕ) : Option BufRange → Outcome ε DocMem
  | some range => .ok (.replyBuf range (List.replicate range.len none))
  | none => if docLen < 2 ^ 63 then .ok (.simple (List.replicate docLen none)) else .panic .capacity

end RecvDoc

/-- If there is a reply buffer awaiting data, takes it. -/
def SpecialReplyState.tryIncoming : SpecialReplyState → Option BufRange × SpecialReplyState
  | awaiting buffer => (buffer, .awaiting .none)
  | other => (.none, other)

/-- The channel takes ownership of a completed document. -/
def OpenChannel.post (channel : OpenChannel) (docNo parentNo : ℕ) (isClosed : Bool) (doc : RecvDoc) : Outcome ε OpenChannel :=
  match doc.mem with
  | .simple buf =>
    .ok { channel with
      readyDocs := channel.readyDocs ++ [⟨buf, docNo, doc.hasSpecialParent, isClosed, doc.docLen, parentNo⟩] }
  | .replyBuf _ _ =>
    match channel.replyBuffer with
    | .awaiting _ =>
      .ok { channel with replyBuffer := .recv doc.totalRecv ⟨docNo, doc.hasSpecialParent, isClosed, doc.docLen⟩ }
    | _ => .panic .unreachable

namespace SessionInner

/-- An error is a value here, since what it leaves behind is still cleaned up. -/
abbrev RecvResult (T : Type) : Type := Except RecvError Unit × SessionInner T

/-- Takes note of a completed document. Its channel, if it is open, gets a reference for it. -/
def completeDoc (s : SessionInner T) (recvIdx docNo : ℕ) (entry : RecvDocMutable) : Outcome ε (Bool × SessionInner T) := do
  let s := { s with ledger := { s.ledger with completed := s.ledger.completed ++ [docNo] } }
  match entry.channel with
  | some channel =>
    let refCount ← add channel.refCount 1
    .ok (false, s.setRecv recvIdx { entry with channel := some { channel with refCount := refCount } })
  | none => .ok (true, s.setRecv recvIdx entry)

/-- A completed document whose parent may not have arrived yet waits in the parent's slot. -/
def adoptLater (s : SessionInner T) (docNo parentNo : ℕ) (isClosed : Bool) (doc : RecvDoc) : Outcome ε (RecvResult T) := do
  let recvIdx ← slot parentNo s.recvTable.length
  let entry ← entryAt s.recvTable recvIdx
  if entry.doc.slotIsFin ∧ entry.orphansExpectedParentNo.all (· = parentNo) then
    match doc.mem with
    | .simple buf =>
      .ok (.ok (), s.setRecv recvIdx { entry with
        orphansExpectedParentNo := some parentNo
        adoptableOrphans := entry.adoptableOrphans ++
          [⟨buf, docNo, doc.hasSpecialParent, isClosed, doc.docLen, parentNo⟩] })
    | .replyBuf _ _ => .panic .unreachable
  else .ok (.error .invalid, s)

/-- Finds something that takes ownership of a completed document. Only a received parent may be waited for. -/
def handOver (s : SessionInner T) (docNo parentNo : ℕ) (isClosed : Bool) (doc : RecvDoc) : Outcome ε (RecvResult T) := do
  let (no, channel) ← s.channelSlot parentNo
  match channel with
  | some channel =>
    if no = parentNo then
      let channel ← channel.post docNo parentNo isClosed doc
      .ok (.ok (), s.setChannel parentNo (some channel))
    else notOpen s no
  | none => notOpen s no
where
  notOpen (s : SessionInner T) (no : ℕ) : Outcome ε (RecvResult T) :=
    if no ≥ parentNo then do
      let s ← s.dropUnfinishedRecvDoc docNo doc.totalRecv
      .ok (.ok (), s)
    else if s.isSending parentNo then .ok (.error .invalid, s)
    else s.adoptLater docNo parentNo isClosed doc

def finDoc (s : SessionInner T) (recvIdx docNo : ℕ) : Outcome ε (RecvResult T) := do
  let entry ← entryAt s.recvTable recvIdx
  match entry.doc with
  | .active doc =>
    let entry := { entry with doc := .finishing }
    match doc.parentNo with
    | some parentNo =>
      let (isClosed, s) ← s.completeDoc recvIdx docNo entry
      s.handOver docNo parentNo isClosed doc
    | none => .ok (.error .invalid, s.setRecv recvIdx entry)
  | _ => .panic .unreachable

/-- Puts a segment into a document and finishes the document if it is complete. What is in the slot if the segment
is invalid is up to the caller. -/
def recvInto (s : SessionInner T) (recvIdx : ℕ) (entry : RecvDocMutable) (doc : RecvDoc) (f : SegFrame) :
    Outcome ε (RecvResult T) := do
  match ← attempt (doc.recvDoc f.off f.data) with
  | .ok (false, doc) => .ok (.ok (), s.setRecv recvIdx { entry with doc := .active doc })
  | .ok (true, doc) => (s.setRecv recvIdx { entry with doc := .active doc }).finDoc recvIdx f.docNo
  | .error e => .ok (.error e, s.setRecv recvIdx entry)

/-- Document update. A segment that finds the slot reserved waits, and nobody else is there to wake it. -/
def updateDoc (s : SessionInner T) (recvIdx : ℕ) (entry : RecvDocMutable) (f : SegFrame) : Outcome ε (RecvResult T) := do
  let closedChannel := if f.isClosed then entry.channel else none
  let entry := if f.isClosed then { entry with channel := none } else entry
  let (ret, s) ← match entry.doc with
    | .activeReserved => .panic .loopBound
    | .active doc => s.recvInto recvIdx entry doc f
    | _ => .ok (.ok (), s.setRecv recvIdx entry)
  let s ← s.dropClosedChannel closedChannel
  .ok (ret, s)

/-- The reply buffer that the special parent of a new document has for it. -/
def lendBuffer (s : SessionInner T) (f : SegFrame) : Outcome ε (Option BufRange × SessionInner T) :=
  match f.hasSpecialParent, f.parentNo with
  | true, some parentNo => do
    let (buffer, s) ← s.updateChannel parentNo fun channel =>
      let (buffer, replyBuffer) := channel.replyBuffer.tryIncoming
      .ok (buffer, { channel with replyBuffer := replyBuffer })
    .ok (buffer.join, s)
  | _, _ => .ok (none, s)

/-- The part of document creation that makes the slot ready for the new document. -/
def claimSlot (s : SessionInner T) (recvIdx : ℕ) (entry : RecvDocMutable) (f : SegFrame) (docLen : ℕ) : SessionInner T :=
  { s with recvBytesTotal := s.recvBytesTotal + docLen }.setRecv recvIdx { entry with
    docNo := f.docNo
    needsSendControl := false
    doc := .activeReserved
    adoptableOrphans := []
    channel := if f.isClosed then none else some ⟨0, entry.adoptableOrphans, .none⟩ }

/-- Whether a slot may be used for a new document. -/
def mayClaim (s : SessionInner T) (entry : RecvDocMutable) (docNo docLen : ℕ) : Bool :=
  entry.doc.slotIsFin && entry.orphansExpectedParentNo.all (· = docNo) &&
    decide (s.recvBytesTotal + docLen < 2 ^ 64 ∧ s.recvBytesTotal + docLen ≤ s.recvBytesMax)

/-- The part of document creation behind the reserved slot: the document gets its memory and its first segment, and
what was in the slot before is dropped. -/
def fillSlot (s : SessionInner T) (recvIdx : ℕ) (f : SegFrame) (docLen : ℕ) (closedOrphans : List UnfinishedRecvDoc)
    (closedChannel : Option OpenChannel) : Outcome ε (RecvResult T) := do
  let (buffer, s) ← s.lendBuffer f
  let reserved ← entryAt s.recvTable recvIdx
  if s.debugAssertions ∧ reserved.doc ≠ .activeReserved then .panic .assertion
  else
    let mem ← RecvDoc.alloc docLen buffer
    let doc := ⟨f.hasSpecialParent, f.parentNo, mem, 0, List.replicate ((docLen + 63) / 64) 0, docLen⟩
    let (ret, s) ← s.recvInto recvIdx reserved doc f
    let s ← dropEach (closedOrphans.map fun d => (d.docNo, d.buf.length)) s
    let s ← s.dropClosedChannel closedChannel
    .ok (ret, s)

/-- Document creation. -/
def createDoc (s : SessionInner T) (recvIdx : ℕ) (entry : RecvDocMutable) (f : SegFrame) : Outcome ε (RecvResult T) :=
  match f.docLen with
  | none => .ok (.ok (), s)
  | some docLen =>
    if !s.mayClaim entry f.docNo docLen then .ok (.error .invalid, s)
    else
      (s.claimSlot recvIdx entry f docLen).fillSlot recvIdx f docLen (if f.isClosed then entry.adoptableOrphans else [])
        entry.channel

/-- What `recv_seg` does once it has parsed the segment. -/
def recvFrame (s : SessionInner T) (f : SegFrame) : Outcome ε (RecvResult T) :=
  if s.isSending f.docNo then .ok (.error .invalid, s)
  else do
    let recvIdx ← slot f.docNo s.recvTable.length
    let entry ← entryAt s.recvTable recvIdx
    if entry.docNo = f.docNo then s.updateDoc recvIdx entry f
    else if entry.docNo < f.docNo then s.createDoc recvIdx entry f
    else .ok (.ok (), s)

/-- Gives the index behind the segment, or nothing if the caller has to abandon the session. -/
def recvSeg (packet : Bytes) (s : SessionInner T) (variant : UInt8) (i : ℕ) : Outcome ε (Option ℕ × SessionInner T) := do
  match ← attempt (SegFrame.parse s.debugAssertions variant packet i) with
  | .ok (f, i) =>
    match ← s.recvFrame f with
    | (.ok (), s) => .ok (some i, s)
    | (.error _, s) => .ok (none, s)
  | .error _ => .ok (none, s)

def recv (s : SessionInner T) (packet : Bytes) (idx : ℕ) : Outcome ε (SessionInner T) := do
  let (valid, s) ← recvFrames (recvSeg packet) packet (packet.length - idx + 1) idx s
  .ok (if valid then s else s.abandon)

end SessionInner

end Pqsnet.Session
