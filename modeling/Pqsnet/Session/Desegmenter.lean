import Pqsnet.Checked.BitRuns
import Pqsnet.Session.Varint

/-! Putting a message back together from segments that arrive in any order. A bitmap of 64-bit words
says which bytes have arrived. -/

namespace Pqsnet.Session

open Checked Outcome

structure Desegmenter where
  /-- Taken once the message is complete. -/
  mem : Option Bytes
  len : ℕ
  totalSet : ℕ
  setSegs : List (BitVec 64)
  /-- The ranges that the copy closure was called on so far. The program keeps no such record. -/
  copied : List (ℕ × ℕ)
  deriving DecidableEq

inductive NewResult
  | segmented (d : Desegmenter)
  | singleSeg (r : ℕ × ℕ)
  | missingLen
  | allocFailure
  | invalid
  deriving DecidableEq

inductive SegError
  | segmented
  | invalid
  deriving DecidableEq

/-- Which fields the header of a segment has. -/
structure SegFlags where
  hasLen : Bool
  hasOff : Bool
  isTerminator : Bool
  deriving DecidableEq

namespace Desegmenter

variable {ε : Type}

def wordAt (setSegs : List (BitVec 64)) (idx : ℕ) : Outcome ε (BitVec 64) :=
  match setSegs[idx]? with
  | some x => .ok x
  | none => .panic .index

/-- The call on what is still pending, if anything is. -/
def flush (start : Option ℕ) (stop : ℕ) : List (ℕ × ℕ) := (start.map (·, stop)).toList

/-- The calls on bits `i` to `j` of a word, together with what is pending from the word before. -/
def runCalls (start : Option ℕ) (base i j : ℕ) : List (ℕ × ℕ) :=
  if i = 0 then [(start.getD base, base + j)] else flush start base ++ [(base + i, base + j)]

/-- The loop of `check_and_set_bits`: the ranges `f` is called on, and the start of a range that goes on
in the next word. -/
def setRuns (base : ℕ) : ℕ → BitVec 64 → Option ℕ → Outcome ε (List (ℕ × ℕ) × Option ℕ)
  | 0, _, _ => .panic .loopBound
  | fuel + 1, setBits, start =>
    match lowestOne setBits with
    | none => .ok ([], start)
    | some i =>
      match lowestOne (setBits + 1#64 <<< i) with
      | some j => do
        let (rest, start') ← setRuns base fuel (setBits &&& BitVec.allOnes 64 <<< j) none
        .ok (runCalls start base i j ++ rest, start')
      | none =>
        if i = 0 then .ok ([], some (start.getD base)) else .ok (flush start base, some (base + i))

def checkAndSetBits (setSegs : List (BitVec 64)) (idx : ℕ) (segBits : BitVec 64) (start : Option ℕ) :
    Outcome ε (List (BitVec 64) × List (ℕ × ℕ) × Option ℕ) := do
  let preBits ← wordAt setSegs idx
  let (calls, start) ← setRuns (idx * 64) 65 (~~~preBits &&& segBits) start
  .ok (setSegs.set idx (preBits ||| segBits), calls, start)

def checkEach (setSegs : List (BitVec 64)) (start : Option ℕ) :
    List (ℕ × BitVec 64) → Outcome ε (List (BitVec 64) × List (ℕ × ℕ) × Option ℕ)
  | [] => .ok (setSegs, [], start)
  | (idx, segBits) :: visits => do
    let (setSegs, calls, start) ← checkAndSetBits setSegs idx segBits start
    let (setSegs, rest, start) ← checkEach setSegs start visits
    .ok (setSegs, calls ++ rest, start)

/-- The words that `run_over_unset_ranges` looks at, with the bits of the range in each. The word before
the last one is left out when there are three or more. -/
def visits (start last : ℕ) : Outcome ε (List (ℕ × BitVec 64)) := do
  let segOffIdx := start / 64
  let segEndIdx := last / 64
  let segOffSet := BitVec.allOnes 64 <<< (start % 64)
  let segEndSet := BitVec.allOnes 64 >>> (64 - last % 64 - 1)
  if segOffIdx = segEndIdx then .ok [(segOffIdx, segOffSet &&& segEndSet)]
  else
    let stop ← sub segEndIdx 1
    let middle := (List.range' (segOffIdx + 1) (stop - (segOffIdx + 1))).map (·, BitVec.allOnes 64)
    .ok ((segOffIdx, segOffSet) :: (middle ++ [(segEndIdx, segEndSet)]))

def runOverUnsetRanges (setSegs : List (BitVec 64)) (start stop : ℕ) :
    Outcome ε (List (BitVec 64) × List (ℕ × ℕ)) := do
  let last ← sub stop 1
  let vs ← visits start last
  let (setSegs, calls, pending) ← checkEach setSegs none vs
  .ok (setSegs, calls ++ flush pending stop)

/-- The copy closure. The program takes the memory without checking that it is still there. -/
def copyRange (packet : Bytes) (idx off : ℕ) (s : Option Bytes × ℕ) (r : ℕ × ℕ) :
    Outcome ε (Option Bytes × ℕ) := do
  let mem ← unwrap s.1
  let a ← sub (idx + r.1) off
  let b ← sub (idx + r.2) off
  let src ← slice packet a b
  let mem ← writeSlice mem r.1 r.2 src
  let n ← sub r.2 r.1
  .ok (some mem, s.2 + n)

def recvInner (d : Desegmenter) (packet : Bytes) (idx off segLen : ℕ) :
    Outcome ε (Option Bytes × Desegmenter × ℕ) := do
  let stop ← add off segLen
  let (setSegs, calls) ← runOverUnsetRanges d.setSegs off stop
  let (mem, curTotalSet) ← calls.foldlM (copyRange packet idx off) (d.mem, 0)
  let d' : Desegmenter :=
    ⟨mem, d.len, (d.totalSet + curTotalSet) % 2 ^ 64, setSegs, d.copied ++ calls⟩
  if curTotalSet > 0 then
    let total ← add d.totalSet curTotalSet
    if total = d.len then .ok (mem, { d' with mem := none }, idx + segLen)
    else .ok (none, d', idx + segLen)
  else .ok (none, d', idx + segLen)

def readField (has : Bool) (packet : Bytes) (idx : ℕ) : Outcome ε (Option (Option ℕ) × ℕ) :=
  if has then do
    let (v, idx) ← varusizeTryRead packet idx
    .ok (v.map some, idx)
  else .ok (some none, idx)

/-- The length of the segment: all that is left of the packet, or a field of its own. -/
def readSegLen (isTerminator : Bool) (packet : Bytes) (idx : ℕ) : Outcome ε (Option ℕ × ℕ) := do
  let remLen ← sub packet.length idx
  if isTerminator then .ok (some remLen, idx)
  else
    let (segLen, idx) ← varusizeTryRead packet idx
    .ok (segLen.filter (· ≤ remLen), idx)

def readHeader (packet : Bytes) (idx : ℕ) (flags : SegFlags) :
    Outcome ε (Option (ℕ × ℕ × Option ℕ) × ℕ) := do
  let (messageLen, idx) ← readField flags.hasLen packet idx
  match messageLen with
  | none => .ok (none, idx)
  | some messageLen =>
    let (off, idx) ← readField flags.hasOff packet idx
    match off with
    | none => .ok (none, idx)
    | some off =>
      let off := off.getD 0
      let (segLen, idx) ← readSegLen flags.isTerminator packet idx
      match segLen with
      | none => .ok (none, idx)
      | some segLen =>
        if off + segLen ≥ 2 ^ 64 ∨ ∃ n ∈ messageLen, off + segLen > n then .ok (none, idx)
        else .ok (some (off, segLen, messageLen), idx)

def recv (d : Desegmenter) (packet : Bytes) (idx : ℕ) (flags : SegFlags) :
    Outcome ε (Except SegError Bytes × Desegmenter × ℕ) := do
  let (header, idx) ← readHeader packet idx flags
  match header with
  | none => .ok (.error .invalid, d, idx)
  | some (off, segLen, messageLen) =>
    if ∃ n ∈ messageLen, n ≠ d.len then .ok (.error .invalid, d, idx)
    else
      let (message, d, idx) ← recvInner d packet idx off segLen
      match message with
      | some m => .ok (.ok m, d, idx)
      | none => .ok (.error .segmented, d, idx)

/-- The same as `recv`, for a caller that has exclusive access. -/
def recvMut (d : Desegmenter) (packet : Bytes) (idx : ℕ) (flags : SegFlags) :
    Outcome ε (Except SegError Bytes × Desegmenter × ℕ) := recv d packet idx flags

/-- Nothing set yet. -/
def empty (mem : Bytes) (messageLen : ℕ) : Desegmenter :=
  ⟨some mem, messageLen, 0, List.replicate ((mem.length + 63) / 64) 0, []⟩

def tryNew (malloc : ℕ → Outcome ε (Option Bytes)) (packet : Bytes) (idx : ℕ) (flags : SegFlags) :
    Outcome ε (NewResult × ℕ) := do
  let (header, idx) ← readHeader packet idx flags
  match header with
  | none => .ok (.invalid, idx)
  | some (_, _, none) => .ok (.missingLen, idx)
  | some (off, segLen, some messageLen) =>
    if segLen = messageLen then .ok (.singleSeg (idx, idx + segLen), idx + segLen)
    else
      match ← malloc messageLen with
      | none => .ok (.allocFailure, idx)
      | some mem =>
        let (_, d, idx) ← recvInner (empty mem messageLen) packet idx off segLen
        .ok (.segmented d, idx)

def trySingleSeg (packet : Bytes) (idx : ℕ) (flags : SegFlags) : Outcome ε (Except SegError (ℕ × ℕ) × ℕ) := do
  let (header, idx) ← readHeader packet idx flags
  match header with
  | none => .ok (.error .invalid, idx)
  | some (_, segLen, messageLen) =>
    if messageLen = some segLen then .ok (.ok (idx, idx + segLen), idx + segLen) else .ok (.error .segmented, idx)

end Desegmenter

end Pqsnet.Session
