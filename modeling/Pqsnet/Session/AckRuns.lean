import Pqsnet.Session.Varint

/-! The run-length code for lists of acknowledged packet numbers, and its decoder. Arithmetic on `u32`
wraps around as in a release build. -/

namespace Pqsnet.Session

open Checked Outcome

def variantAckSingle : UInt8 := 0x80
def variantAckRun : UInt8 := 0x81

namespace AckRuns

variable {ε : Type}

def ackAt (sortedAcks : List UInt32) (i : ℕ) : Outcome ε UInt32 :=
  match sortedAcks[i]? with
  | some a => .ok a
  | none => .panic .index

/-- A growing buffer, together with the longest it has been. -/
structure Buf where
  bytes : Bytes
  peak : ℕ
  deriving DecidableEq

namespace Buf

def ofBytes (b : Bytes) : Buf := ⟨b, b.length⟩

def len (b : Buf) : ℕ := b.bytes.length

def extend (b : Buf) (x : Bytes) : Buf := ⟨b.bytes ++ x, max b.peak (b.bytes ++ x).length⟩

def pop (b : Buf) : Buf := ⟨b.bytes.dropLast, b.peak⟩

def set (b : Buf) (i : ℕ) (x : UInt8) : Outcome ε Buf :=
  if i < b.bytes.length then .ok ⟨b.bytes.set i x, b.peak⟩ else .panic .index

end Buf

/-- What the loop over the runs of one frame changes. -/
structure Cursor where
  i : ℕ
  buf : Buf
  curSetRunLen : UInt32
  deriving DecidableEq

inductive Flow
  | next
  | stop
  deriving DecidableEq

def setRunCode (curSetRunLen : UInt32) : UInt32 := ((curSetRunLen - 1) <<< 1) ||| 1

/-- The end of the loop body: `diff` numbers behind the last one written. -/
def writeUnsetRun (maxLen i : ℕ) (buf : Buf) (diff : UInt32) : Outcome ε (Flow × Cursor) := do
  let curUnsetRunLen := diff - 2
  if curUnsetRunLen.toNat > varintU32Max >>> 1 then
    let i ← sub i 1
    .ok (.stop, ⟨i, buf, 0⟩)
  else
    let n := curUnsetRunLen <<< 1
    let newLen := buf.len + varu32Len n
    if newLen > maxLen then
      let i ← sub i 1
      .ok (.stop, ⟨i, buf, 0⟩)
    else
      .ok (if newLen = maxLen then .stop else .next, ⟨i, buf.extend (varu32Write n), 0⟩)

/-- The loop body once a gap of `diff ≥ 2` ended the pending run of set numbers. -/
def writeGap (maxLen i : ℕ) (buf : Buf) (curSetRunLen diff : UInt32) : Outcome ε (Flow × Cursor) :=
  if curSetRunLen > 0 then do
    let n := setRunCode curSetRunLen
    let newLen := buf.len + varu32Len n
    if newLen > maxLen then
      let i ← sub i (curSetRunLen.toNat + 1)
      .ok (.stop, ⟨i, buf, 0⟩)
    else
      let buf := buf.extend (varu32Write n)
      if newLen = maxLen then
        let i ← sub i 1
        .ok (.stop, ⟨i, buf, 0⟩)
      else
        -- The number behind a run of set ones is unset, so the gap is one shorter.
        let diff := diff - 1
        if diff ≤ 1 then .ok (.next, ⟨i, buf, 1⟩)
        else writeUnsetRun maxLen i buf diff
  else writeUnsetRun maxLen i buf diff

def encodeStep (sortedAcks : List UInt32) (maxLen : ℕ) (c : Cursor) : Outcome ε (Flow × Cursor) := do
  let a ← ackAt sortedAcks c.i
  let p ← sub c.i 1
  let b ← ackAt sortedAcks p
  let diff := a - b
  let i := c.i + 1
  if diff ≤ 1 then .ok (.next, ⟨i, c.buf, c.curSetRunLen + 1⟩)
  else writeGap maxLen i c.buf c.curSetRunLen diff

def encodeRuns (sortedAcks : List UInt32) (maxLen : ℕ) : ℕ → Cursor → Outcome ε Cursor
  | 0, _ => .panic .loopBound
  | fuel + 1, c =>
    if c.i < sortedAcks.length then do
      match ← encodeStep sortedAcks maxLen c with
      | (.next, c) => encodeRuns sortedAcks maxLen fuel c
      | (.stop, c) => .ok c
    else .ok c

/-- The run still pending when the list ended is written, or left to the next frame. -/
def closeRun (maxLen : ℕ) (c : Cursor) : Outcome ε (ℕ × Buf) :=
  if c.curSetRunLen > 0 then do
    let n := setRunCode c.curSetRunLen
    let newLen := c.buf.len + varu32Len n
    if newLen > maxLen then
      let i ← sub c.i c.curSetRunLen.toNat
      .ok (i, c.buf)
    else .ok (c.i, c.buf.extend (varu32Write n))
  else .ok (c.i, c.buf)

/-- Erases the length byte of an empty run, and fills in that of any other. -/
def closeFrame (variantIdx lenIdx : ℕ) (buf : Buf) : Outcome ε Buf := do
  let runTotalLen ← sub buf.len lenIdx
  if runTotalLen ≤ 1 then buf.pop.set variantIdx variantAckSingle
  else buf.set lenIdx (UInt8.ofNat (runTotalLen - 2))

def encodeFrames (sortedAcks : List UInt32) (capacity : ℕ) : ℕ → ℕ → Buf → Outcome ε (ℕ × Buf)
  | 0, _, _ => .panic .loopBound
  | fuel + 1, i, buf =>
    if i < sortedAcks.length then do
      let variantIdx := buf.len
      let lenIdx := variantIdx + 5
      if lenIdx > capacity then .ok (i, buf)
      else
        let a ← ackAt sortedAcks i
        let buf := (buf.extend [variantAckRun]).extend (toBe 4 a.toNat)
        let i := i + 1
        if lenIdx + 1 > capacity then
          let buf ← buf.set variantIdx variantAckSingle
          .ok (i, buf)
        else
          let buf := buf.extend [0]
          let maxLen := min capacity (buf.len + 256)
          let c ← encodeRuns sortedAcks maxLen (sortedAcks.length + 1) ⟨i, buf, 0⟩
          let (i, buf) ← closeRun maxLen c
          let buf ← closeFrame variantIdx lenIdx buf
          encodeFrames sortedAcks capacity fuel i buf
    else .ok (i, buf)

/-- The number of acks that were written, and the buffer behind them. -/
def encode (buf : Bytes) (sortedAcks : List UInt32) (capacity : ℕ) : Outcome ε (ℕ × Buf) :=
  encodeFrames sortedAcks capacity (sortedAcks.length + 1) 0 (.ofBytes buf)

/-! Decoding lists the numbers that the callback sees, in order. -/

def countUp : ℕ → UInt32 → List UInt32
  | 0, _ => []
  | n + 1, curAckNo => (curAckNo + 1) :: countUp n (curAckNo + 1)

def decodeRuns (buf : Bytes) : ℕ → ℕ → UInt32 → Outcome ε (Bool × ℕ × List UInt32)
  | 0, _, _ => .panic .loopBound
  | fuel + 1, i, curAckNo =>
    if i < buf.length then do
      let (curRun, i) ← varu32TryRead buf i
      match curRun with
      | none => .ok (false, i, [])
      | some curRun =>
        let curRunLen := curRun >>> 1
        let acks := if curRun &&& 1 > 0 then countUp (curRunLen + 1) curAckNo
          else [curAckNo + UInt32.ofNat (curRunLen + 2)]
        let curAckNo := if curRun &&& 1 > 0 then curAckNo + UInt32.ofNat (curRunLen + 1) + 1
          else curAckNo + UInt32.ofNat (curRunLen + 2)
        let (done, i, rest) ← decodeRuns buf fuel i curAckNo
        .ok (done, i, acks ++ rest)
    else .ok (true, i, [])

def decode (buf : Bytes) (isRun : Bool) (i : ℕ) : Outcome ε (Bool × ℕ × List UInt32) := do
  if i + 4 + isRun.toNat > buf.length then .ok (false, i, [])
  else
    let bytes ← slice buf i (i + 4)
    let firstAckNo := UInt32.ofNat (fromBe bytes)
    let i := i + 4
    if !isRun then .ok (true, i, [firstAckNo])
    else
      let l ← index buf i
      let totalLen := l.toNat + 1
      let i := i + 1
      if i + totalLen > buf.length then .ok (false, i, [firstAckNo])
      else
        let (done, i, rest) ← decodeRuns (buf.take (i + totalLen)) (totalLen + 1) i firstAckNo
        .ok (done, i, firstAckNo :: rest)

def decodeFrames (buf : Bytes) : ℕ → ℕ → Outcome ε (Bool × ℕ × List UInt32)
  | 0, _ => .panic .loopBound
  | fuel + 1, i =>
    if i < buf.length then do
      let variant ← index buf i
      if variant = variantAckRun ∨ variant = variantAckSingle then
        let (done, i, acks) ← decode buf (variant = variantAckRun) (i + 1)
        if done then
          let (done, i, rest) ← decodeFrames buf fuel i
          .ok (done, i, acks ++ rest)
        else .ok (false, i, acks)
      else .ok (false, i, [])
    else .ok (true, i, [])

/-- Frame by frame to the end of the buffer; the variant byte says whether runs follow. -/
def decodeAll (buf : Bytes) (i : ℕ) : Outcome ε (Bool × ℕ × List UInt32) :=
  decodeFrames buf (buf.length + 1) i

end AckRuns

end Pqsnet.Session
