import Pqsnet.Session.State

/-! The frames of a packet as the receiver reads them: the loop of `recv`, and how `recv_seg` parses. -/

namespace Pqsnet.Session

open Checked Outcome

def variantSegMin : UInt8 := 0x01
def variantSegMax : UInt8 := 0x7F

inductive RecvError
  | invalid
  deriving DecidableEq

/-- A segment as it was received. -/
structure SegFrame where
  docNo : ℕ
  docLen : Option ℕ
  parentNo : Option ℕ
  off : ℕ
  data : Bytes
  hasSpecialParent : Bool
  isFirst : Bool
  isSingleSeg : Bool
  isClosed : Bool
  deriving DecidableEq

namespace SegFrame

/-- An integer that must be there. -/
def readVar (packet : Bytes) (i : ℕ) : Outcome RecvError (ℕ × ℕ) := do
  let (v, i) ← varusizeTryRead packet i
  match v with
  | some v => .ok (v, i)
  | none => .err .invalid

def readDocLen (hasDocLen : Bool) (packet : Bytes) (i : ℕ) : Outcome RecvError (Option ℕ × ℕ) :=
  if hasDocLen then do
    let (docLen, i) ← readVar packet i
    .ok (some docLen, i)
  else .ok (none, i)

/-- Parents are older than their children. -/
def readParent (hasParent : Bool) (docNo : ℕ) (packet : Bytes) (i : ℕ) : Outcome RecvError (Option ℕ × ℕ) :=
  if hasParent then do
    let (p, i) ← readVar packet i
    if p ≥ docNo then .err .invalid else .ok (some p, i)
  else .ok (none, i)

def readOff (isFirst : Bool) (packet : Bytes) (i : ℕ) : Outcome RecvError (ℕ × ℕ) :=
  if isFirst then .ok (0, i) else readVar packet i

/-- The last terminator at or before `segEnd`, which must not stand before `segStart`. -/
def findTerminator (packet : Bytes) (segStart : ℕ) : ℕ → Outcome RecvError ℕ
  | 0 =>
    if segStart > 0 then .err .invalid
    else do
      let b ← index packet 0
      if b = variantNullTerminator then .ok 0 else .panic .arith
  | segEnd + 1 =>
    if segStart > segEnd + 1 then .err .invalid
    else do
      let b ← index packet (segEnd + 1)
      if b = variantNullTerminator then .ok (segEnd + 1) else findTerminator packet segStart segEnd

def readData (debugAssertions : Bool) (variantLen : UInt8) (packet : Bytes) (i : ℕ) : Outcome RecvError (Bytes × ℕ) :=
  if variantLen = variantSegIsTerminator then do
    let data ← slice packet i packet.length
    .ok (data, packet.length)
  else if variantLen = variantSegHasLen then do
    let (segLen, i) ← readVar packet i
    let stop := min (i + segLen) (2 ^ 64 - 1)
    if i ≤ stop ∧ stop ≤ packet.length then .ok ((packet.take stop).drop i, stop) else .err .invalid
  else if debugAssertions ∧ variantLen ≠ variantSegHasTerminator then .panic .assertion
  else do
    let segEnd ← sub packet.length 1
    let segEnd ← findTerminator packet i segEnd
    let data ← slice packet i segEnd
    .ok (data, packet.length)

/-- Reads a segment from behind its variant, and gives the index behind it. -/
def parse (debugAssertions : Bool) (variant : UInt8) (packet : Bytes) (i : ℕ) : Outcome RecvError (SegFrame × ℕ) := do
  let hasSpecialParent := hasFlag variant variantSegFlagHasSpecialParent
  let isSingleSeg := hasFlag variant variantSegFlagIsSingleSeg
  let isFirst := hasFlag variant variantSegFlagIsFirst
  let (docNo, i) ← readVar packet i
  let (docLen, i) ← readDocLen (hasFlag variant variantSegFlagHasDocLen) packet i
  let (parentNo, i) ← readParent (hasSpecialParent || isFirst) docNo packet i
  let (off, i) ← readOff isFirst packet i
  let (data, i) ← readData debugAssertions (variant &&& variantSegLenMask) packet i
  let docLen := if isSingleSeg then some (docLen.getD data.length) else docLen
  .ok (⟨docNo, docLen, parentNo, off, data, hasSpecialParent, isFirst, isSingleSeg,
    hasFlag variant variantSegFlagIsClosed⟩, i)

end SegFrame

section Frames

variable {ε σ : Type}

/-- The loop over the frames of a packet. A segment is handled by `recvSeg`, which gives the index behind it, or
nothing if it is invalid, and that ends the loop. Acks and control frames are not looked at. -/
def recvFrames (recvSeg : σ → UInt8 → ℕ → Outcome ε (Option ℕ × σ)) (packet : Bytes) : ℕ → ℕ → σ → Outcome ε (Bool × σ)
  | 0, _, _ => .panic .loopBound
  | fuel + 1, idx, x =>
    if idx < packet.length then do
      let variant ← index packet idx
      if variant = variantNullTerminator then .ok (true, x)
      else if variantSegMin ≤ variant ∧ variant ≤ variantSegMax then
        match ← recvSeg x variant (idx + 1) with
        | (some idx, x) => recvFrames recvSeg packet fuel idx x
        | (none, x) => .ok (false, x)
      else recvFrames recvSeg packet fuel (idx + 1) x
    else .ok (true, x)

/-- Reads the segments only: each with the index of its variant. -/
def collectSeg (debugAssertions : Bool) (packet : Bytes) (segs : List (ℕ × SegFrame)) (variant : UInt8) (i : ℕ) :
    Outcome ε (Option ℕ × List (ℕ × SegFrame)) := do
  match ← attempt (SegFrame.parse debugAssertions variant packet i) with
  | .ok (seg, j) => .ok (some j, segs ++ [(i - 1, seg)])
  | .error _ => .ok (none, segs)

/-- All the segments from index `idx` on, and whether all were valid. -/
def parseFrames (debugAssertions : Bool) (packet : Bytes) (idx : ℕ) : Outcome ε (Bool × List (ℕ × SegFrame)) :=
  recvFrames (collectSeg debugAssertions packet) packet (packet.length - idx + 1) idx []

end Frames

end Pqsnet.Session
