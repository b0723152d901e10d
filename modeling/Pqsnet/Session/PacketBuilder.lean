import Pqsnet.Session.AckRuns

/-! Packets under construction: acks, and the frames that are sent again until they are acknowledged. -/

namespace Pqsnet.Session

open Checked Outcome

def variantNullTerminator : UInt8 := 0x0
def variantPadding : UInt8 := 0xFF

def variantSegHasLen : UInt8 := 0x01
def variantSegIsTerminator : UInt8 := 0x02
def variantSegHasTerminator : UInt8 := 0x03
def variantSegFlagIsFirst : UInt8 := 0x04
def variantSegFlagHasSpecialParent : UInt8 := 0x08
def variantSegFlagHasDocLen : UInt8 := 0x10
def variantSegFlagIsSingleSeg : UInt8 := 0x20
def variantSegFlagIsClosed : UInt8 := 0x40

def variantSegLenMask : UInt8 := 0x03

def variantControlFin : UInt8 := 0x82
def variantControlClose : UInt8 := 0x84

def minFrameAppendLen : ℕ := 16
def minSegDataLen : ℕ := 16
def Protocol.headerLen : ℕ := 8
def Protocol.footerLen : ℕ := 16

def flagIf (b : Bool) (flag : UInt8) : UInt8 := if b then flag else 0

def hasFlag (variant flag : UInt8) : Bool := variant &&& flag > 0

/-- The program packs the first two fields into one word. -/
structure Segment where
  variant : UInt8
  headerLen : ℕ
  docNo : ℕ
  docLen : ℕ
  docParentNo : ℕ
  off : ℕ
  data : Bytes
  /-- Names the frame that a segment is or is a part of. The program keeps no such record. -/
  label : Option ℕ
  deriving DecidableEq

inductive ElicitingFrame
  | seg (seg : Segment)
  | control (variant : UInt8) (docNo : ℕ) (label : Option ℕ)
  deriving DecidableEq

structure SendDoc where
  parentNo : ℕ
  hasSpecialParent : Bool
  hasBeenAcked : Bool
  nextSegOff : ℕ
  data : Bytes
  deriving DecidableEq

structure PacketBuilder where
  mtu : ℕ
  socketBinding : Option (Bool × UInt32)
  buf : Bytes
  resendLen : ℕ
  elicitingFrames : List ElicitingFrame
  /-- The acks in the packet, by the index of the socket they came from. The program keeps no such record. -/
  acks : List (Bool × List UInt32)
  deriving DecidableEq

variable {ε : Type}

/-- Addition on a 32-bit machine word, checked for overflow. -/
def add32 (a b : ℕ) : Outcome ε ℕ := if a + b < 2 ^ 32 then .ok (a + b) else .panic .arith

def resendRatio (mtu : ℕ) : Outcome ε ℕ := if mtu * 2 < 2 ^ 32 then .ok (mtu * 2 / 3) else .panic .arith

namespace Segment

/-- The part of `try_new` for a segment that is not its whole document. -/
def tryPart (docNo : ℕ) (doc : SendDoc) (variant : UInt8) (headerLen remainingCap : ℕ) :
    Outcome ε (Except Bool (Segment × SendDoc)) := do
  let variant := variant ||| flagIf (!doc.hasBeenAcked) variantSegFlagHasDocLen
  let headerLen := headerLen + if doc.hasBeenAcked then 0 else varusizeLen doc.data.length
  if headerLen + minSegDataLen > remainingCap then .ok (.error true)
  else
    let totalLeft ← sub doc.data.length doc.nextSegOff
    let room ← sub remainingCap headerLen
    let nextSegOff ← add doc.nextSegOff (min totalLeft room)
    let data ← slice doc.data doc.nextSegOff nextSegOff
    .ok (.ok (⟨variant, headerLen, docNo, doc.data.length, doc.parentNo, doc.nextSegOff, data, none⟩,
      { doc with nextSegOff := nextSegOff }))

/-- The next segment of a document, `false` if there is none and `true` if there is no room for it. -/
def tryNew (docNo : ℕ) (doc : SendDoc) (isClosed : Bool) (remainingCap : ℕ) :
    Outcome ε (Except Bool (Segment × SendDoc)) :=
  if doc.nextSegOff ≥ doc.data.length then .ok (.error false)
  else
    let variant := flagIf isClosed variantSegFlagIsClosed
    let headerLen := 1 + varu64Len docNo
    if doc.nextSegOff = 0 then
      let variant := variant ||| variantSegFlagIsFirst |||
        flagIf doc.hasSpecialParent variantSegFlagHasSpecialParent
      let headerLen := headerLen + varu64Len doc.parentNo
      if headerLen + doc.data.length ≤ remainingCap then
        .ok (.ok (⟨variant ||| variantSegFlagIsSingleSeg, headerLen, docNo, doc.data.length, doc.parentNo,
          doc.nextSegOff, doc.data, none⟩, { doc with nextSegOff := doc.data.length }))
      else tryPart docNo doc variant headerLen remainingCap
    else
      let special := !doc.hasBeenAcked && doc.hasSpecialParent
      let variant := variant ||| flagIf special variantSegFlagHasSpecialParent
      let headerLen := (headerLen + if special then varu64Len doc.parentNo else 0) + varusizeLen doc.nextSegOff
      tryPart docNo doc variant headerLen remainingCap

/-- What stands in front of the data, its length apart. -/
def header (seg : Segment) : Bytes :=
  [seg.variant] ++ varu64Write seg.docNo ++
  (if hasFlag seg.variant variantSegFlagHasDocLen then varusizeWrite seg.docLen else []) ++
  (if hasFlag seg.variant variantSegFlagHasSpecialParent || hasFlag seg.variant variantSegFlagIsFirst then
    varu64Write seg.docParentNo else []) ++
  if hasFlag seg.variant variantSegFlagIsFirst then [] else varusizeWrite seg.off

/-- Variant and header length of the first part of a segment that is cut in two. -/
def cutHeader (seg : Segment) : UInt8 × ℕ :=
  if hasFlag seg.variant variantSegFlagIsSingleSeg then
    let variant := seg.variant &&& ~~~variantSegFlagIsSingleSeg
    if hasFlag variant variantSegFlagHasDocLen then (variant, seg.headerLen)
    else (variant ||| variantSegFlagHasDocLen, seg.headerLen + varusizeLen seg.docLen)
  else (seg.variant, seg.headerLen)

/-- Variant and header length of the second part, which begins at `newOff`. -/
def restHeader (variant : UInt8) (headerLen docParentNo newOff : ℕ) : Outcome ε (UInt8 × ℕ) :=
  if hasFlag variant variantSegFlagIsFirst then do
    let newHeaderLen := headerLen + varusizeLen newOff
    if hasFlag variant variantSegFlagHasSpecialParent then .ok (variant &&& ~~~variantSegFlagIsFirst, newHeaderLen)
    else
      let newHeaderLen ← sub newHeaderLen (varu64Len docParentNo)
      .ok (variant &&& ~~~variantSegFlagIsFirst, newHeaderLen)
  else .ok (variant, headerLen)

def splitOff (data : Bytes) (n : ℕ) : Outcome ε (Bytes × Bytes) :=
  if n ≤ data.length then .ok (data.take n, data.drop n) else .panic .slice

/-- The two parts of a segment that does not fit, or nothing if not even the first one does. -/
def cut (seg : Segment) (dataCap : ℕ) : Outcome ε (Option (Segment × Segment)) := do
  let (variant, headerLen) := seg.cutHeader
  if hasFlag seg.variant variantSegFlagIsSingleSeg ∧ headerLen + minSegDataLen > dataCap then .ok none
  else
    let splitIdx ← sub dataCap headerLen
    let newOff ← add seg.off splitIdx
    let (newVariant, newHeaderLen) ← restHeader variant headerLen seg.docParentNo newOff
    let (data, rest) ← splitOff seg.data splitIdx
    .ok (some ({ seg with variant := variant, headerLen := headerLen, data := data },
      { seg with variant := newVariant, headerLen := newHeaderLen, off := newOff, data := rest }))

end Segment

namespace PacketBuilder

def new (mtu : ℕ) : PacketBuilder := ⟨mtu, none, List.replicate Protocol.headerLen 0, 0, [], []⟩

def isEmpty (p : PacketBuilder) : Bool := p.buf.isEmpty

def remainingCap (p : PacketBuilder) : Outcome ε ℕ := sub p.mtu p.buf.length

def isFull (p : PacketBuilder) : Outcome ε Bool := do
  let cap ← p.remainingCap
  .ok (cap < minFrameAppendLen)

/-- `buf[i] |= flag`. -/
def orAt (buf : Bytes) (i : ℕ) (flag : UInt8) : Outcome ε Bytes := do
  let b ← index buf i
  .ok (buf.set i (b ||| flag))

/-- Records a frame that was written from `variantIdx` on. -/
def pushFrame (p : PacketBuilder) (variantIdx : ℕ) (frame : ElicitingFrame) : Outcome ε (Bool × PacketBuilder) := do
  let len ← sub p.buf.length variantIdx
  let resendLen ← add32 p.resendLen (len % 2 ^ 32)
  let p := { p with resendLen := resendLen, elicitingFrames := p.elicitingFrames ++ [frame] }
  let full ← p.isFull
  .ok (full, p)

/-- The data of a segment whose header was written from `variantIdx` on. -/
def appendData (p : PacketBuilder) (variantIdx : ℕ) (data : Bytes) : Outcome ε PacketBuilder := do
  let dataCap ← p.remainingCap
  if data.length = dataCap then
    let buf ← orAt p.buf variantIdx variantSegIsTerminator
    .ok { p with buf := buf ++ data }
  else if data.length + varusizeLen data.length ≤ dataCap then
    let buf ← orAt p.buf variantIdx variantSegHasLen
    .ok { p with buf := buf ++ varusizeWrite data.length ++ data }
  else
    let buf ← orAt p.buf variantIdx variantSegHasTerminator
    let p := { p with buf := buf ++ data ++ [variantNullTerminator] }
    let cap ← p.remainingCap
    .ok { p with buf := p.buf ++ List.replicate cap variantPadding }

def appendSeg (p : PacketBuilder) (seg : Segment) : Outcome ε (Bool × PacketBuilder) := do
  let variantIdx := p.buf.length
  let p ← appendData { p with buf := p.buf ++ seg.header } variantIdx seg.data
  p.pushFrame variantIdx (.seg seg)

/-- Whether the packet has to be sent, and what is left of the segment. -/
def tryAppendSeg (p : PacketBuilder) (seg : Segment) : Outcome ε (Bool × Option Segment × PacketBuilder) := do
  let dataCap ← p.remainingCap
  if seg.headerLen + minSegDataLen > dataCap then .ok (true, some seg, p)
  else if seg.headerLen + seg.data.length > dataCap then
    match ← seg.cut dataCap with
    | none => .ok (true, some seg, p)
    | some (seg, rest) =>
      let (_, p) ← p.appendSeg seg
      let full ← p.isFull
      .ok (full, some rest, p)
  else
    let (_, p) ← p.appendSeg seg
    let full ← p.isFull
    .ok (full, none, p)

def appendControl (p : PacketBuilder) (variant : UInt8) (docNo : ℕ) (label : Option ℕ) :
    Outcome ε (Bool × PacketBuilder) :=
  pushFrame { p with buf := p.buf ++ [variant] ++ varu64Write docNo } p.buf.length (.control variant docNo label)

/-- Also gives the acks that are left. -/
def appendSortedAcks (p : PacketBuilder) (acks : List UInt32) (socketIdx : Bool) (socketUid : UInt32) :
    Outcome ε (Bool × PacketBuilder × List UInt32) := do
  let (totalWritten, buf) ← AckRuns.encode p.buf acks p.mtu
  let p := { p with buf := buf.bytes }
  let p := if totalWritten > 0 then
      { p with socketBinding := some (socketIdx, socketUid), acks := p.acks ++ [(socketIdx, acks.take totalWritten)] }
    else p
  let full ← p.isFull
  .ok (full, p, acks.drop totalWritten)

end PacketBuilder

end Pqsnet.Session
