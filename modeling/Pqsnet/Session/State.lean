import Pqsnet.Session.PacketBuilder

/-! The state of a session: its documents, their channels, and its packets in flight. Wakers are left out,
since what they wake polls again. -/

namespace Pqsnet.Session

open Checked Outcome

/-- Memory that the application lends. -/
structure BufRange where
  addr : ℕ
  len : ℕ
  deriving DecidableEq

/-- Memory of a document that is being received; `none` stands for a byte that was not written yet. -/
inductive DocMem
  | simple (m : List (Option UInt8))
  | replyBuf (range : BufRange) (m : List (Option UInt8))
  deriving DecidableEq

structure RecvDoc where
  hasSpecialParent : Bool
  parentNo : Option ℕ
  mem : DocMem
  totalRecv : ℕ
  setSegs : List (BitVec 64)
  /-- The length that was announced for the document. The program keeps it nowhere. -/
  docLen : ℕ
  deriving DecidableEq

inductive RecvDocState
  | activeReserved
  | active (doc : RecvDoc)
  | finishing
  | finAck
  | finParentClose
  deriving DecidableEq

def RecvDocState.slotIsFin : RecvDocState → Bool
  | finishing => true
  | finAck => true
  | _ => false

/-- A completed document that nobody has taken yet. The program keeps neither the length that was announced for it
nor its parent. -/
structure UnfinishedRecvDoc where
  buf : List (Option UInt8)
  docNo : ℕ
  hasSpecialParent : Bool
  isClosed : Bool
  docLen : ℕ
  parentNo : ℕ
  deriving DecidableEq

/-- A completed document in a reply buffer that nobody has taken yet. -/
structure UnreleasedChannel where
  docNo : ℕ
  hasSpecialParent : Bool
  isClosed : Bool
  docLen : ℕ
  deriving DecidableEq

inductive SpecialReplyState
  | awaiting (buffer : Option BufRange)
  | recv (len : ℕ) (channel : UnreleasedChannel)
  | none
  deriving DecidableEq

structure OpenChannel where
  refCount : ℕ
  readyDocs : List UnfinishedRecvDoc
  replyBuffer : SpecialReplyState
  deriving DecidableEq

structure RecvDocMutable where
  docNo : ℕ
  doc : RecvDocState
  channel : Option OpenChannel
  adoptableOrphans : List UnfinishedRecvDoc
  orphansExpectedParentNo : Option ℕ
  needsSendControl : Bool
  deriving DecidableEq

structure SendDocMutable where
  docNo : ℕ
  needsSendClose : Bool
  doc : Option SendDoc
  channel : Option OpenChannel
  deriving DecidableEq

structure Sock where
  localId : UInt32
  uid : UInt32
  deriving DecidableEq

structure SocketData where
  acks : List UInt32
  socket : Sock
  deriving DecidableEq

abbrev ArrayVec (α : Type) (n : ℕ) : Type := { l : List α // l.length ≤ n }

/-- Changes the value at index `i`. -/
def ArrayVec.modify {α : Type} {n : ℕ} (v : ArrayVec α n) (i : ℕ) (f : α → α) : ArrayVec α n :=
  ⟨v.1.modify i f, by rw [List.length_modify]; exact v.2⟩

structure SentPayload (T : Type) where
  packetUid : ℕ
  sentAt : T
  resendLen : ℕ
  elicitingFrames : List ElicitingFrame
  deriving DecidableEq

/-- The numbers of received documents, by what became of them: all that were completed, and of these the
ones the application took, those that were released because their parent closed, and those that were
forgotten. The program keeps no such record. -/
structure Ledger where
  completed : List ℕ
  taken : List ℕ
  released : List ℕ
  lost : List ℕ
  deriving DecidableEq

/-- `T` is the type of points in time. -/
structure SessionInner (T : Type) where
  isInitiator : Bool
  mtu : ℕ
  recvBytesTotal : ℕ
  recvBytesMax : ℕ
  recvTable : List RecvDocMutable
  sendBytesTotal : ℕ
  sendBytesMax : ℕ
  sendTotal : ℕ
  sendDocNo : ℕ
  sendTable : List SendDocMutable
  sendQueue : List ℕ
  packetQueue : List (SentPayload T)
  unackedPackets : Finset ℕ
  orphans : List ElicitingFrame
  sockets : ArrayVec SocketData 2
  curIdx : Bool
  /-- The calls of `schedule_send_control` so far. -/
  scheduled : List (UInt8 × ℕ)
  /-- Whether the build checks debug assertions. -/
  debugAssertions : Bool
  ledger : Ledger
  deriving DecidableEq

namespace SessionInner

variable {T ε : Type}

/-- A session with nothing to do. -/
def idle (sockets : ArrayVec SocketData 2) : SessionInner T where
  isInitiator := true
  mtu := 64
  recvBytesTotal := 0
  recvBytesMax := 0
  recvTable := []
  sendBytesTotal := 0
  sendBytesMax := 0
  sendTotal := 0
  sendDocNo := 1
  sendTable := []
  sendQueue := []
  packetQueue := []
  unackedPackets := ∅
  orphans := []
  sockets := sockets
  curIdx := false
  scheduled := []
  debugAssertions := false
  ledger := ⟨[], [], [], []⟩

def setAcks (s : SessionInner T) (i : ℕ) (acks : List UInt32) : SessionInner T :=
  { s with sockets := s.sockets.modify i fun d => { d with acks := acks } }

def setSend (s : SessionInner T) (i : ℕ) (entry : SendDocMutable) : SessionInner T :=
  { s with sendTable := s.sendTable.set i entry }

def setRecv (s : SessionInner T) (i : ℕ) (entry : RecvDocMutable) : SessionInner T :=
  { s with recvTable := s.recvTable.set i entry }

def addOrphans (frames : List ElicitingFrame) (s : SessionInner T) : SessionInner T :=
  { s with orphans := s.orphans ++ frames }

def slot (docNo len : ℕ) : Outcome ε ℕ := if len = 0 then .panic .arith else .ok ((docNo >>> 1) % len)

def entryAt {α : Type} (table : List α) (i : ℕ) : Outcome ε α :=
  match table[i]? with
  | some x => .ok x
  | none => .panic .index

/-- Whether a document is one that this side sends. -/
def isSending (s : SessionInner T) (docNo : ℕ) : Bool := decide (docNo &&& 1 > 0) = s.isInitiator

end SessionInner

end Pqsnet.Session
