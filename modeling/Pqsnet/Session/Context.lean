import Pqsnet.Session.Desegmenter
import Pqsnet.Transport.Initiator
import Pqsnet.Transport.Responder

/-! The table of handshakes in progress: opening one, and receiving its messages fragment by fragment. -/

namespace Pqsnet.Session

open Checked Outcome Transport

def socketIdInitMessage : ℕ := 0
def socketIdResponseMessage : ℕ := 1
def socketIdConfirmMessage : ℕ := 2
def socketIdReservedMax : ℕ := varintU8Max

def handshakeNoLen : ℕ := 128 / 8
def handshakeNoSocketIdInc : ℕ := 1 <<< (128 - 8)

/-- Addition on a 128-bit handshake number. -/
def addNo {ε : Type} (a b : ℕ) : Outcome ε ℕ := if a + b < 2 ^ 128 then .ok (a + b) else .panic .arith

/-- A socket as far as receiving sees it: whether its session is still there, and its decryptor. -/
structure Socket where
  alive : Bool
  decrypt : UInt32 → Bytes → Option Bytes

inductive HandshakeEntry (C : CryptoAndMem)
  | coolDown
  | responderRecv (desegmenter : Desegmenter)
  | initiatorSent (reservedSocketId : ℕ) (desegmenter : Option Desegmenter) (curMessage : Bytes)
      (state : InitState C)
  | responderSent (reservedSocketId : ℕ) (desegmenter : Option Desegmenter) (curMessage : Bytes)
      (state : ReplyState C)

/-- What a complete message is handed to. -/
inductive Pending (C : CryptoAndMem)
  | initMessage
  | reply (reservedSocketId : ℕ) (state : InitState C)
  | confirm (reservedSocketId : ℕ) (state : ReplyState C)

inductive Event
  | processInitialize (handshakeNo : ℕ)
  | processReply (handshakeNo : ℕ)
  | processConfirm (handshakeNo : ℕ)
  | handshakeComplete (socketId : ℕ)
  | deliver (socketId : ℕ) (plaintext : Bytes)
  deriving DecidableEq

structure Context (C : CryptoAndMem) where
  socketTable : ℕ → Option (Option Socket)
  handshakeTable : ℕ → Option (HandshakeEntry C)
  secretBundle : SecretBundle C
  /-- What was processed so far. The program keeps no such record. -/
  events : List Event

/-- What one call takes from outside: randomness, the clock, allocators and the serialized payload that
announces a socket id. -/
structure Env (C : CryptoAndMem) where
  seed : C.Seed
  socketIds : List ℕ
  secsSinceUnixEpoch : UInt64
  messageAlloc : C.MessageAlloc
  bundleAlloc : C.BundleAlloc
  payload : ℕ → Bytes
  in_range : ∀ id ∈ socketIds, socketIdReservedMax < id ∧ id < varintU32Max

/-- No allocation is larger than `isize::MAX`. -/
def boxMalloc {ε : Type} (n : ℕ) : Outcome ε (Option Bytes) :=
  if n < 2 ^ 63 then .ok (some (List.replicate n 0)) else .panic .capacity

def fragmentFlags : SegFlags := ⟨true, true, true⟩

namespace HandshakeEntry

variable {C : CryptoAndMem}

/-- What an entry waits for, the fragments it has, and the entry with more of them. -/
def waiting : HandshakeEntry C → Option (Pending C × Option Desegmenter × (Desegmenter → HandshakeEntry C))
  | coolDown => none
  | responderRecv d => some (.initMessage, some d, responderRecv)
  | initiatorSent id d m state => some (.reply id state, d, fun d => initiatorSent id (some d) m state)
  | responderSent id d m state => some (.confirm id state, d, fun d => responderSent id (some d) m state)

end HandshakeEntry

namespace Context

variable {C : CryptoAndMem} {ε : Type}

def setEntry (ctx : Context C) (no : ℕ) (entry : HandshakeEntry C) : Context C :=
  { ctx with handshakeTable := Function.update ctx.handshakeTable no (some entry) }

def setSocket (ctx : Context C) (id : ℕ) (socket : Option (Option Socket)) : Context C :=
  { ctx with socketTable := Function.update ctx.socketTable id socket }

def log (ctx : Context C) (e : Event) : Context C := { ctx with events := ctx.events ++ [e] }

/-- The first random id that is not taken. The program draws until it finds one. -/
def createPayload (ctx : Context C) (env : Env C) : Outcome ε (Bytes × ℕ × Context C) :=
  match env.socketIds.find? fun id => (ctx.socketTable id).isNone with
  | some id => .ok (env.payload id, id, ctx.setSocket id (some none))
  | none => .panic .loopBound

/-- `random` is the drawn handshake number. -/
def openHandshake (ctx : Context C) (env : Env C) (random : ℕ) : Outcome ε (Context C) := do
  let handshakeNo := random >>> 8
  let replyNo ← addNo handshakeNo handshakeNoSocketIdInc
  let (payload, reservedSocketId, ctx) ← createPayload ctx env
  let message ← InitState.initializeMessage env.seed (toBe handshakeNoLen handshakeNo) ctx.secretBundle none
    payload env.messageAlloc
  let (curMessage, state) ← unwrap message
  .ok (ctx.setEntry replyNo (.initiatorSent reservedSocketId none curMessage state))

/-- No session is set up yet. -/
def handshakeComplete (ctx : Context C) (newSocketId : ℕ) : Context C := ctx.log (.handshakeComplete newSocketId)

def recvInitMessage (ctx : Context C) (env : Env C) (handshakeNo : ℕ) (message : Bytes) :
    Outcome ε (Context C) := do
  let ctx := ctx.log (.processInitialize handshakeNo)
  let decoded ← attempt (ReplyState.decodeInitialize env.seed (toBe handshakeNoLen handshakeNo) message
    ctx.secretBundle none env.secsSinceUnixEpoch)
  match decoded with
  | .error _ => .ok ctx
  | .ok init =>
    let (payload, reservedSocketId, ctx) ← createPayload ctx env
    let encoded ← attempt (ReplyState.encodeReply init ctx.secretBundle payload env.messageAlloc)
    match encoded with
    | .error _ => .ok (ctx.setSocket reservedSocketId none)
    | .ok (.complete _) => .ok (ctx.handshakeComplete reservedSocketId)
    | .ok (.incomplete curMessage state) =>
      let replyNo ← addNo handshakeNo handshakeNoSocketIdInc
      let confirmNo ← addNo replyNo handshakeNoSocketIdInc
      match ctx.handshakeTable confirmNo with
      | some _ => .ok (ctx.setSocket reservedSocketId none)
      | none => .ok (ctx.setEntry confirmNo (.responderSent reservedSocketId none curMessage state))

/-- What a packet was found to be: nothing more to do, a handshake message that is complete, or data
behind the id of a socket. -/
inductive Fragment (C : CryptoAndMem)
  | dropped
  | message (handshakeNo : ℕ) (pending : Pending C) (message : Bytes)
  | data (socketId idx : ℕ)

/-- The first fragment: it is a message on its own, or it is kept. -/
def firstFragment (ctx : Context C) (packet : Bytes) (handshakeNo : ℕ) (pending : Pending C)
    (keep : Desegmenter → HandshakeEntry C) : Outcome ε (Fragment C × Context C) := do
  let (result, _) ← Desegmenter.tryNew boxMalloc packet handshakeNoLen fragmentFlags
  match result with
  | .segmented d => .ok (.dropped, ctx.setEntry handshakeNo (keep d))
  | .singleSeg (a, b) =>
    let message ← slice packet a b
    .ok (.message handshakeNo pending message, ctx.setEntry handshakeNo .coolDown)
  | .invalid => .ok (.dropped, ctx)
  | .missingLen => .panic .unreachable
  | .allocFailure => .panic .unreachable

def nextFragment (ctx : Context C) (packet : Bytes) (handshakeNo : ℕ) (pending : Pending C) (d : Desegmenter)
    (keep : Desegmenter → HandshakeEntry C) : Outcome ε (Fragment C × Context C) := do
  let (result, d, _) ← Desegmenter.recvMut d packet handshakeNoLen fragmentFlags
  match result with
  | .ok m => .ok (.message handshakeNo pending m, ctx.setEntry handshakeNo .coolDown)
  | .error _ => .ok (.dropped, ctx.setEntry handshakeNo (keep d))

/-- The path of a packet with a reserved socket id, up to a complete message. -/
def recvReserved (ctx : Context C) (packet : Bytes) (socketId : ℕ) : Outcome ε (Fragment C × Context C) :=
  if packet.length < handshakeNoLen then .ok (.dropped, ctx)
  else if socketId > socketIdConfirmMessage then .ok (.dropped, ctx)
  else do
    let bytes ← slice packet 0 handshakeNoLen
    let handshakeNo := fromBe bytes
    match ctx.handshakeTable handshakeNo with
    | some entry =>
      match entry.waiting with
      | none => .ok (.dropped, ctx)
      | some (pending, some d, keep) => nextFragment ctx packet handshakeNo pending d keep
      | some (pending, none, keep) => firstFragment ctx packet handshakeNo pending keep
    | none =>
      if socketId ≠ socketIdInitMessage then .ok (.dropped, ctx)
      else firstFragment ctx packet handshakeNo .initMessage .responderRecv

def recvFragment (ctx : Context C) (packet : Bytes) : Outcome ε (Fragment C × Context C) := do
  let (socketId, idx) ← varu64TryRead packet 0
  match socketId with
  | none => .ok (.dropped, ctx)
  | some socketId =>
    if socketId ≤ socketIdReservedMax then recvReserved ctx packet socketId else .ok (.data socketId idx, ctx)

/-- A complete message, whose entry is on cool down by now. -/
def dispatch (ctx : Context C) (env : Env C) (handshakeNo : ℕ) (pending : Pending C) (message : Bytes) :
    Outcome ε (Context C) :=
  match pending with
  | .initMessage => recvInitMessage ctx env handshakeNo message
  | .reply reservedSocketId state => do
    let ctx := ctx.log (.processReply handshakeNo)
    match ← attempt (state.processReply message env.secsSinceUnixEpoch env.bundleAlloc env.messageAlloc) with
    | .ok _ => .ok (ctx.handshakeComplete reservedSocketId)
    | .error _ => .ok (ctx.setSocket reservedSocketId none)
  | .confirm reservedSocketId state => do
    let ctx := ctx.log (.processConfirm handshakeNo)
    match ← attempt (state.processConfirm message env.secsSinceUnixEpoch env.bundleAlloc) with
    | .ok _ => .ok (ctx.handshakeComplete reservedSocketId)
    | .error _ => .ok (ctx.setSocket reservedSocketId none)

def recvData (ctx : Context C) (packet : Bytes) (socketId idx : ℕ) : Outcome ε (Context C) :=
  match ctx.socketTable socketId with
  | some (some socket) =>
    if !socket.alive then .ok ctx
    else do
      let j ← add idx 4
      if j > packet.length then .ok ctx
      else
        let bytes ← slice packet idx j
        let rest ← slice packet j packet.length
        match socket.decrypt (UInt32.ofNat (fromBe bytes)) rest with
        | none => .ok ctx
        | some plaintext => .ok (ctx.log (.deliver socketId plaintext))
  | _ => .ok ctx

def recv (ctx : Context C) (env : Env C) (packet : Bytes) : Outcome ε (Context C) := do
  let (fragment, ctx) ← recvFragment ctx packet
  match fragment with
  | .dropped => .ok ctx
  | .message handshakeNo pending message => dispatch ctx env handshakeNo pending message
  | .data socketId idx => recvData ctx packet socketId idx

end Context

end Pqsnet.Session
