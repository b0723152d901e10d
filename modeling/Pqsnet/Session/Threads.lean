import Pqsnet.Session.Channel
import Pqsnet.Session.Recv
import Pqsnet.Session.Send

/-! A session that is used by several threads. A thread is cut where it gives back the lock of a slot and
where it changes a counter; what it does in between happens at once. -/

namespace Pqsnet.Session

open Checked Outcome

variable {T ε : Type}

/-- What a thread that receives or drops documents does the next time it takes a lock. -/
inductive Task
  | seg (f : SegFrame)
  /-- A segment of a document whose slot is reserved, with the channel that the segment closed. -/
  | wait (f : SegFrame) (closedChannel : Option OpenChannel)
  | lookUp (f : SegFrame) (docLen : ℕ)
  | fill (f : SegFrame) (docLen : ℕ) (buffer : Option BufRange)
  | handOver (docNo parentNo : ℕ) (isClosed : Bool) (doc : RecvDoc)
  | dropRound (docNo docLen : ℕ)
  | abandon

/-- What is left when a lock is given back: what the thread does next, and whether it has to abandon the session
in the end. -/
structure Done (T : Type) where
  session : SessionInner T
  tasks : List Task
  invalid : Bool

def dropDoc (d : UnfinishedRecvDoc) : Task := .dropRound d.docNo d.buf.length

/-- What is left to do with a channel that was taken out of its slot. -/
def dropDocs : Option OpenChannel → List Task
  | some channel => channel.readyDocs.reverse.map dropDoc
  | none => []

namespace SessionInner

/-- `fin_doc`, up to where it gives back the lock of the slot. -/
def finSection (s : SessionInner T) (recvIdx docNo : ℕ) : Outcome ε (Done T) := do
  let entry ← entryAt s.recvTable recvIdx
  match entry.doc with
  | .active doc =>
    let entry := { entry with doc := .finishing }
    match doc.parentNo with
    | some parentNo =>
      let (isClosed, s) ← s.completeDoc recvIdx docNo entry
      .ok ⟨s, [.handOver docNo parentNo isClosed doc], false⟩
    | none => .ok ⟨s.setRecv recvIdx entry, [], true⟩
  | _ => .panic .unreachable

def intoSection (s : SessionInner T) (recvIdx : ℕ) (entry : RecvDocMutable) (doc : RecvDoc) (f : SegFrame) :
    Outcome ε (Done T) := do
  match ← attempt (doc.recvDoc f.off f.data) with
  | .ok (false, doc) => .ok ⟨s.setRecv recvIdx { entry with doc := .active doc }, [], false⟩
  | .ok (true, doc) => (s.setRecv recvIdx { entry with doc := .active doc }).finSection recvIdx f.docNo
  | .error _ => .ok ⟨s.setRecv recvIdx entry, [], true⟩

/-- Document update, from the loop on that waits while the slot is reserved. -/
def updateSection (s : SessionInner T) (recvIdx : ℕ) (entry : RecvDocMutable) (f : SegFrame)
    (closedChannel : Option OpenChannel) : Outcome ε (Done T) :=
  match entry.doc with
  | .activeReserved => .ok ⟨s.setRecv recvIdx entry, [.wait f closedChannel], false⟩
  | .active doc => do
    let done ← s.intoSection recvIdx entry doc f
    .ok { done with tasks := done.tasks ++ dropDocs closedChannel }
  | _ => .ok ⟨s.setRecv recvIdx entry, dropDocs closedChannel, false⟩

/-- A thread that was woken looks at the state of the slot, and not at its number. -/
def waitSection (s : SessionInner T) (f : SegFrame) (closedChannel : Option OpenChannel) : Outcome ε (Done T) := do
  let recvIdx ← slot f.docNo s.recvTable.length
  let entry ← entryAt s.recvTable recvIdx
  s.updateSection recvIdx entry f closedChannel

/-- Document creation, from where the slot is locked again. -/
def fillSection (s : SessionInner T) (f : SegFrame) (docLen : ℕ) (buffer : Option BufRange) : Outcome ε (Done T) := do
  let recvIdx ← slot f.docNo s.recvTable.length
  let reserved ← entryAt s.recvTable recvIdx
  if s.debugAssertions ∧ reserved.doc ≠ .activeReserved then .panic .assertion
  else
    let mem ← RecvDoc.alloc docLen buffer
    let doc := ⟨f.hasSpecialParent, f.parentNo, mem, 0, List.replicate ((docLen + 63) / 64) 0, docLen⟩
    s.intoSection recvIdx reserved doc f

/-- Document creation. The slot stays locked unless there is a special parent to look up. -/
def createSection (s : SessionInner T) (recvIdx : ℕ) (entry : RecvDocMutable) (f : SegFrame) : Outcome ε (Done T) :=
  match f.docLen with
  | none => .ok ⟨s, [], false⟩
  | some docLen =>
    if !s.mayClaim entry f.docNo docLen then .ok ⟨s, [], true⟩
    else
      let s := s.claimSlot recvIdx entry f docLen
      let dropped := (if f.isClosed then entry.adoptableOrphans else []).map dropDoc ++ dropDocs entry.channel
      if f.hasSpecialParent ∧ f.parentNo.isSome then .ok ⟨s, .lookUp f docLen :: dropped, false⟩
      else do
        let done ← s.fillSection f docLen none
        .ok { done with tasks := done.tasks ++ dropped }

/-- `recv_seg` once it has parsed the segment. -/
def segSection (s : SessionInner T) (f : SegFrame) : Outcome ε (Done T) :=
  if s.isSending f.docNo then .ok ⟨s, [], true⟩
  else do
    let recvIdx ← slot f.docNo s.recvTable.length
    let entry ← entryAt s.recvTable recvIdx
    if entry.docNo = f.docNo then
      s.updateSection recvIdx (if f.isClosed then { entry with channel := none } else entry) f
        (if f.isClosed then entry.channel else none)
    else if entry.docNo < f.docNo then s.createSection recvIdx entry f
    else .ok ⟨s, [], false⟩

/-- The rest of `fin_doc`, with the slot of the parent locked. -/
def handOverSection (s : SessionInner T) (docNo parentNo : ℕ) (isClosed : Bool) (doc : RecvDoc) : Outcome ε (Done T) := do
  let (no, channel) ← s.channelSlot parentNo
  match channel with
  | some channel =>
    if no = parentNo then
      let channel ← channel.post docNo parentNo isClosed doc
      .ok ⟨s.setChannel parentNo (some channel), [], false⟩
    else notOpen s no
  | none => notOpen s no
where
  notOpen (s : SessionInner T) (no : ℕ) : Outcome ε (Done T) :=
    if no ≥ parentNo then .ok ⟨s, [.dropRound docNo doc.totalRecv], false⟩
    else if s.isSending parentNo then .ok ⟨s, [], true⟩
    else do
      match ← s.adoptLater docNo parentNo isClosed doc with
      | (.ok (), s) => .ok ⟨s, [], false⟩
      | (.error _, s) => .ok ⟨s, [], true⟩

end SessionInner

open SessionInner

def Task.run (s : SessionInner T) : Task → Outcome ε (Done T)
  | seg f => s.segSection f
  | wait f closedChannel => s.waitSection f closedChannel
  | lookUp f docLen => do
    let (buffer, s) ← s.lendBuffer f
    .ok ⟨s, [.fill f docLen buffer], false⟩
  | fill f docLen buffer => s.fillSection f docLen buffer
  | handOver docNo parentNo isClosed doc => s.handOverSection docNo parentNo isClosed doc
  | dropRound docNo docLen => do
    let (pushed, s) ← s.dropRound docNo docLen
    .ok ⟨s, pushed.map fun (docNo, docLen) => .dropRound docNo docLen, false⟩
  | abandon => .ok ⟨s.abandon, [], false⟩

/-- `close_if_inner`, up to where it gives back the lock of the slot. -/
def Channel.closeSection (c : Channel) (f : OpenChannel → Outcome ε (Bool × OpenChannel)) (s : SessionInner T) :
    Outcome ε (Done T) := do
  match ← s.channelSlot c.docNo with
  | (no, some channel) =>
    if no = c.docNo then
      let (close, channel) ← f channel
      if close then
        .ok ⟨(c.markClose (s.setChannel c.docNo none)).scheduleSendControl variantControlClose c.docNo,
          dropDocs (some channel), false⟩
      else .ok ⟨s.setChannel c.docNo (some channel), [], false⟩
    else .ok ⟨s, [], false⟩
  | (_, none) => .ok ⟨s, [], false⟩

def Channel.dropSection (c : Channel) (s : SessionInner T) : Outcome ε (Done T) :=
  c.closeSection (fun channel => do
    let refCount ← sub channel.refCount 1
    .ok (refCount = 0, { channel with refCount := refCount })) s

/-- Where a call of `try_send_any` is. Behind each place but the last two there is one access to the session. -/
inductive Place
  | start
  | full
  | limited
  | weigh (sendBytesMax : ℕ)
  | heavy
  | search
  | lock (docNo : ℕ)
  | returned
  | panicked
  deriving DecidableEq

/-- Whether the call is in progress. -/
def Place.isLive : Place → Bool
  | returned => false
  | panicked => false
  | _ => true

/-- A call of `try_send_any`, by the application or by a future that sends for a reply. -/
structure Call where
  hasSpecialParent : Bool
  doc : Bytes
  future : Option SendReplyFuture
  place : Place

namespace Call

def replyBuffer (call : Call) : SpecialReplyState :=
  match call.future with
  | some fut => .awaiting (some fut.buffer)
  | none => .none

/-- Where the call goes on, or what it returns. -/
abbrev Next := Place ⊕ Except TrySendError ℕ

/-- What an atomic `fetch_add` leaves: it wraps around. -/
def fetchAdd (a b : ℕ) : ℕ := (a + b) % 2 ^ 64

/-- Behind a `fetch_add`: the same sum once more, but checked, and where the call goes on if it reaches the limit. -/
def within (a b limit : ℕ) (no yes : Place) : Place :=
  if a + b < 2 ^ 64 then if a + b ≥ limit then no else yes else .panicked

def step (call : Call) (s : SessionInner T) : Outcome ε (Next × SessionInner T) :=
  match call.place with
  | .start =>
    .ok (.inl (within s.sendTotal 1 s.sendTable.length .full .limited), { s with sendTotal := fetchAdd s.sendTotal 1 })
  | .full => .ok (.inr (.error .full), { s with sendTotal := fetchSub s.sendTotal 1 })
  | .limited =>
    if s.sendBytesMax = 0 then .ok (.inr (.error .abandoned), s)
    else if call.doc.length ≥ s.sendBytesMax then .ok (.inr (.error .tooLarge), s)
    else .ok (.inl (.weigh s.sendBytesMax), s)
  | .weigh sendBytesMax =>
    .ok (.inl (within s.sendBytesTotal call.doc.length sendBytesMax .heavy .search),
      { s with sendBytesTotal := fetchAdd s.sendBytesTotal call.doc.length })
  | .heavy => .ok (.inl .full, { s with sendBytesTotal := fetchSub s.sendBytesTotal call.doc.length })
  | .search => .ok (.inl (.lock s.sendDocNo), { s with sendDocNo := fetchAdd s.sendDocNo 2 })
  | .lock docNo => do
    let sendIdx ← slot docNo s.sendTable.length
    let entry ← entryAt s.sendTable sendIdx
    if entry.channel.isSome ∨ entry.doc.isSome then .ok (.inl .search, s)
    else
      .ok (.inr (.ok docNo), s.setSend sendIdx {
        docNo := docNo
        needsSendClose := false
        doc := some ⟨docNo, call.hasSpecialParent, false, 0, call.doc⟩
        channel := some ⟨1, [], call.replyBuffer⟩ })
  | .returned => .panic .unreachable
  | .panicked => .panic .unreachable

end Call

/-- A session with everything that is going on: the threads that receive, the calls that send, the handles that the
application has, and the futures that wait for a reply. The last two fields are records that the program does not
keep: the numbers that were drawn for documents, and those that calls returned. -/
structure Machine (T : Type) where
  session : SessionInner T
  threads : List (List Task)
  calls : List Call
  handles : List Channel
  futures : List SendReplyFuture
  drawn : List ℕ
  given : List ℕ

namespace Machine

/-- What the caller gets. A future that found no room tries again. -/
def answer (m : Machine T) (call : Call) : Except TrySendError ℕ → Machine T
  | .ok docNo =>
    match call.future with
    | some fut =>
      { m with futures := m.futures ++ [{ fut with state := .sent ⟨docNo, false, false⟩ }], given := m.given ++ [docNo] }
    | none => { m with handles := m.handles ++ [⟨docNo, false, false⟩], given := m.given ++ [docNo] }
  | .error e =>
    match call.future, e with
    | some fut, .full => { m with futures := m.futures ++ [fut] }
    | _, _ => m

/-- What a place adds to the record of drawn numbers. -/
def draws : Call.Next → List ℕ
  | .inl (.lock docNo) => [docNo]
  | _ => []

/-- What a call leaves behind, at index `k` of the calls. -/
def advance (m : Machine T) (k : ℕ) (call : Call) (next : Call.Next) (s : SessionInner T) : Machine T :=
  let m := { m with session := s, drawn := m.drawn ++ draws next }
  match next with
  | .inl place => { m with calls := m.calls.set k { call with place := place } }
  | .inr r => { m.answer call r with calls := m.calls.set k { call with place := .returned } }

/-- A thread that is left with something to do. -/
def spawn (m : Machine T) (done : Done T) : Machine T :=
  { m with session := done.session, threads := m.threads ++ [done.tasks] }

/-- The thread at index `k` goes on. -/
def resume (m : Machine T) (k : ℕ) (rest : List Task) (done : Done T) : Machine T :=
  { m with
    session := done.session
    threads := m.threads.set k (done.tasks ++ rest ++ if done.invalid then [.abandon] else []) }

/-- Whether there is room for one more call: the calls in progress and the table share one address space. -/
def HasRoom (m : Machine T) : Prop :=
  (m.calls.filter fun call => call.place.isLive).length + 1 + m.session.sendTable.length < 2 ^ 64

/-- The handle to a document that was taken out of a channel. -/
def taken : Option (Option UnfinishedRecvDoc) → List Channel
  | some (some d) => [(Channel.delivered d).2]
  | _ => []

/-- What a poll leaves of a future that waits for a reply. One that completed is not polled again; what is left of it is
the handle that it owned, which is dropped some time later. -/
def polled (m : Machine T) (fut : SendReplyFuture) (reply : Channel) (s : SessionInner T) : SendReplyFuture.Polled → Machine T
  | .pending => { m with session := s }
  | .error _ => { m with session := s, futures := m.futures.erase fut, handles := m.handles ++ [reply] }
  | .ready _ c => { m with session := s, futures := m.futures.erase fut, handles := m.handles ++ [c, reply] }

/-- What one thread does between two points where it is cut. A call on a handle or on a future needs that it is still
there. Dropping a future that waits for a reply has to meet the condition `C`. -/
inductive Step (C : Machine T → ℕ → Prop) (m : Machine T) : Machine T → Prop
  | recvSeg (f : SegFrame) : Step C m { m with threads := m.threads ++ [[.seg f]] }
  | run {k : ℕ} {task : Task} {rest : List Task} {done : Done T} (hk : m.threads[k]? = some (task :: rest))
      (h : (task.run m.session : Outcome Empty _) = .ok done) : Step C m (m.resume k rest done)
  | takeReady {c : Channel} {r : Option (Option UnfinishedRecvDoc)} {s : SessionInner T} (hc : c ∈ m.handles)
      (h : (c.takeReady m.session : Outcome Empty _) = .ok (r, s)) :
      Step C m { m with session := s, handles := m.handles ++ taken r }
  | clone {c c' : Channel} {s : SessionInner T} (hc : c ∈ m.handles) (h : (c.clone m.session : Outcome Empty _) = .ok (c', s)) :
      Step C m { m with session := s, handles := m.handles ++ [c'] }
  | drop {c : Channel} {done : Done T} (hc : c ∈ m.handles) (h : (c.dropSection m.session : Outcome Empty _) = .ok done) :
      Step C m { m.spawn done with handles := m.handles.erase c }
  | closeIf {c : Channel} {done : Done T} (b : Bool) (hc : c ∈ m.handles)
      (h : (c.closeSection (fun channel => .ok (b, channel)) m.session : Outcome Empty _) = .ok done) : Step C m (m.spawn done)
  | trySend {c : Channel} (doc : Bytes) (hc : c ∈ m.handles) (hroom : m.HasRoom) :
      Step C m { m with calls := m.calls ++ [⟨c.hasSpecialParent, doc, none, .start⟩] }
  | sendWithReplyBuffer {c : Channel} (doc : Bytes) (buffer : BufRange) (hc : c ∈ m.handles) :
      Step C m { m with futures := m.futures ++ [⟨c, buffer, .sending doc⟩] }
  | pollSending {fut : SendReplyFuture} {doc : Bytes} (hf : fut ∈ m.futures) (hs : fut.state = .sending doc) (hroom : m.HasRoom) :
      Step C m { m with
        futures := m.futures.erase fut
        calls := m.calls ++ [⟨fut.channel.hasSpecialParent, doc, some fut, .start⟩] }
  | pollSent {fut : SendReplyFuture} {reply : Channel} {r : SendReplyFuture.Polled} {s : SessionInner T}
      (hf : fut ∈ m.futures) (hs : fut.state = .sent reply)
      (h : (SendReplyFuture.pollSent reply m.session : Outcome Empty _) = .ok (r, s)) : Step C m (m.polled fut reply s r)
  | dropSending {fut : SendReplyFuture} {doc : Bytes} (hf : fut ∈ m.futures) (hs : fut.state = .sending doc) :
      Step C m { m with futures := m.futures.erase fut }
  | dropSent {fut : SendReplyFuture} {reply : Channel} {done : Done T} (hf : fut ∈ m.futures) (hs : fut.state = .sent reply)
      (hC : C m reply.docNo) (h : (reply.dropSection m.session : Outcome Empty _) = .ok done) :
      Step C m { m.spawn done with futures := m.futures.erase fut }
  | send {k : ℕ} {call : Call} {next : Call.Next} {s : SessionInner T} (hk : m.calls[k]? = some call)
      (h : (call.step m.session : Outcome Empty _) = .ok (next, s)) : Step C m (m.advance k call next s)
  -- what a pass over the documents does while it holds the lock of a slot, with any packet it may be at
  | sendDoc {tx tx' : Tx T} {docNo : ℕ} (htx : tx.session = m.session) (h : sendDoc tx docNo = .ok tx') :
      Step C m { m with session := tx'.session }
  | lastDoc {tx : Tx T} {out : Sent T} {docNo : ℕ} (htx : tx.session = m.session) (h : sendDoc tx docNo = .err out) :
      Step C m { m with session := out.session }
  | sendRetry {tx tx' : Tx T} {docNo : ℕ} (htx : tx.session = m.session)
      (h : sendRetry tx (m.session.sendIdx docNo) docNo = .ok tx') : Step C m { m with session := tx'.session }
  | lastRetry {tx : Tx T} {out : Sent T} {docNo : ℕ} (htx : tx.session = m.session)
      (h : sendRetry tx (m.session.sendIdx docNo) docNo = .err out) : Step C m { m with session := out.session }

end Machine

end Pqsnet.Session
