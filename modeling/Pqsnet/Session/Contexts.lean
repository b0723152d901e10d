import Pqsnet.Checked.Simulation
import Pqsnet.Session.KeySpace
import Pqsnet.Session.SocketIds
import Pqsnet.Transport.MutualAuthentication

/-! Contexts that handshake with each other, over a network that anyone may write to. -/

namespace Pqsnet.Session

open Checked Outcome Transport

variable {C : CryptoAndMem} {ι : Type}

/-- A call of `handshake_complete`: what completed it, with the bytes that were received, the id of the new socket and the
result. -/
structure Completion (C : CryptoAndMem) where
  message : Event
  received : Bytes
  newSocketId : ℕ
  complete : HandshakeComplete C

namespace Completion

/-- The number that the handshake was opened with. -/
def handshakeNo (c : Completion C) : ℕ :=
  match c.message with
  | .processReply no => no - handshakeNoSocketIdInc
  | .processConfirm no => no - handshakeNoSocketIdInc - handshakeNoSocketIdInc
  | .processInitialize no => no
  | _ => 0

/-- Whether it was this side that opened the handshake. -/
def isInitiator (c : Completion C) : Bool :=
  match c.message with
  | .processReply _ => true
  | _ => false

end Completion

namespace Context

/-- The answer to an init message, with the socket id that was drawn for it. -/
def initAnswer (ctx : Context C) (env : Env C) (handshakeNo : ℕ) (message : Bytes) : Outcome ReplyError (ℕ × InitOk C) := do
  let init ← ReplyState.decodeInitialize env.seed (toBe handshakeNoLen handshakeNo) message ctx.secretBundle none
    env.secsSinceUnixEpoch
  let (payload, reservedSocketId, _) ← createPayload ctx env
  let answer ← ReplyState.encodeReply init ctx.secretBundle payload env.messageAlloc
  .ok (reservedSocketId, answer)

/-- The call of `handshake_complete` that a complete message leads to. -/
def messageCompletion (ctx : Context C) (env : Env C) (handshakeNo : ℕ) (message : Bytes) : Pending C → Option (Completion C)
  | .initMessage =>
    match ctx.initAnswer env handshakeNo message with
    | .ok (reservedSocketId, .complete hc) => some ⟨.processInitialize handshakeNo, message, reservedSocketId, hc⟩
    | _ => none
  | .reply reservedSocketId state =>
    match state.processReply message env.secsSinceUnixEpoch env.bundleAlloc env.messageAlloc with
    | .ok hc => some ⟨.processReply handshakeNo, message, reservedSocketId, hc⟩
    | _ => none
  | .confirm reservedSocketId state =>
    match state.processConfirm message env.secsSinceUnixEpoch env.bundleAlloc with
    | .ok hc => some ⟨.processConfirm handshakeNo, message, reservedSocketId, hc⟩
    | _ => none

/-- The call of `handshake_complete` while a packet is received. -/
def completion (ctx : Context C) (env : Env C) (packet : Bytes) : Option (Completion C) :=
  match (recvFragment ctx packet : Outcome Empty _) with
  | .ok (.message handshakeNo pending message, ctx) => ctx.messageCompletion env handshakeNo message pending
  | _ => none

end Context

/-- Contexts, and all the calls of `handshake_complete` so far. The programs keep no such record. -/
structure Contexts (C : CryptoAndMem) (ι : Type) where
  node : ι → Context C
  completions : List (ι × Completion C)

namespace Contexts

variable [DecidableEq ι]

/-- One of the contexts returns from a call. -/
def set (p : Contexts C ι) (k : ι) (ctx : Context C) (c : Option (Completion C)) : Contexts C ι :=
  ⟨Function.update p.node k ctx, p.completions ++ (c.map fun c => (k, c)).toList⟩

/-- A call of one of the contexts: it opens a handshake with a fresh number, or it receives a packet, from anyone. -/
inductive Step (p : Contexts C ι) : Contexts C ι → Prop
  | opened (k : ι) {env : Env C} {random : ℕ} {ctx : Context C} (hr : random < 2 ^ 128)
      (hfresh : (p.node k).handshakeTable (random >>> 8 + handshakeNoSocketIdInc) = none)
      (h : ((p.node k).openHandshake env random : Outcome Empty _) = .ok ctx) : Step p (p.set k ctx none)
  | received (k : ι) {env : Env C} {packet : Bytes} {ctx : Context C}
      (h : ((p.node k).recv env packet : Outcome Empty _) = .ok ctx) : Step p (p.set k ctx ((p.node k).completion env packet))
  -- a panic while a fragment is copied, as for one context
  | torn (k : ι) {packet : Bytes} {panic : Panic} {socketId no : ℕ} {entry : HandshakeEntry C} {pending : Pending C}
      {d d' : Desegmenter} {keep : Desegmenter → HandshakeEntry C}
      (h : ((p.node k).recvFragment packet : Outcome Empty _) = .panic panic) (ha : Addresses packet socketId no)
      (htab : (p.node k).handshakeTable no = some entry) (hw : entry.waiting = some (pending, some d, keep)) :
      Step p (p.set k ((p.node k).setEntry no (keep d')) none)

/-- No handshake was started yet, and each context has the keys of its party. -/
structure New (party : ι → Party C) (p : Contexts C ι) : Prop where
  node : ∀ k, (p.node k).New
  bundle : ∀ k, (p.node k).secretBundle = (party k).1
  completions : p.completions = []

def Reached (party : ι → Party C) (p : Contexts C ι) : Prop := ∃ p₀ : Contexts C ι, p₀.New party ∧ Relation.ReflTransGen Step p₀ p

end Contexts

/-! Every call of a context is at most one call in the network of parties. -/

/-- The party opened this handshake under this number. -/
structure Opens (party : Party C) (no : ℕ) (i : Initiator C) : Prop where
  party : i.party = party
  aad : i.aad = toBe handshakeNoLen no
  small : no < 2 ^ 128

/-- The party answered an init message with this number. -/
structure Replies (party : Party C) (no : ℕ) (r : Responder C) : Prop where
  party : r.party = party
  aad : r.aad = toBe handshakeNoLen no
  small : no < 2 ^ 128

/-- The handshake that an entry waits for is one of those in the network. -/
def HandshakeEntry.Recorded (net : Network C) (party : Party C) (key : ℕ) : HandshakeEntry C → Prop
  | initiatorSent _ _ message state => ∃ no, key = no + handshakeNoSocketIdInc ∧
      ∃ i ∈ net.initiators, Opens party no i ∧ i.initMessage = message ∧ i.state = state
  | responderSent _ _ message state => ∃ no, key = no + handshakeNoSocketIdInc + handshakeNoSocketIdInc ∧
      ∃ r ∈ net.responders, Replies party no r ∧ r.answer = .incomplete message state
  | _ => True

namespace HandshakeEntry

variable {net net' : Network C} {party : Party C} {key : ℕ} {entry : HandshakeEntry C}

lemma Recorded.mono (h : entry.Recorded net party key) (hi : net.initiators ⊆ net'.initiators)
    (hr : net.responders ⊆ net'.responders) : entry.Recorded net' party key := by
  cases entry with
  | coolDown => trivial
  | responderRecv d => trivial
  | initiatorSent id d m state =>
    obtain ⟨no, hkey, i, hmem, hopens⟩ := h
    exact ⟨no, hkey, i, hi hmem, hopens⟩
  | responderSent id d m state =>
    obtain ⟨no, hkey, r, hmem, hreplies⟩ := h
    exact ⟨no, hkey, r, hr hmem, hreplies⟩

lemma Recorded.keep {pending : Pending C} {o : Option Desegmenter} {keep : Desegmenter → HandshakeEntry C}
    (h : entry.Recorded net party key) (hw : entry.waiting = some (pending, o, keep)) (d : Desegmenter) :
    (keep d).Recorded net party key := by
  cases entry <;> cases hw <;> exact h

end HandshakeEntry

namespace Contexts

/-- The network has a record of all that the contexts did, and no other. -/
structure Recorded (party : ι → Party C) (p : Contexts C ι) (net : Network C) : Prop where
  bundle : ∀ k, (p.node k).secretBundle = (party k).1
  entries : ∀ k key entry, (p.node k).handshakeTable key = some entry → entry.Recorded net (party k) key
  initiators : ∀ i ∈ net.initiators, ∃ k no, Opens (party k) no i
  responders : ∀ r ∈ net.responders, ∃ k no, Replies (party k) no r ∧ .processInitialize no ∈ (p.node k).events
  small : ∀ x ∈ p.completions, x.2.handshakeNo < 2 ^ 128
  initiatorsDone : net.initiatorsDone.map (fun d => (d.initiator.party, d.initiator.aad, d.replyMessage, d.result)) =
    (p.completions.filter fun x => x.2.isInitiator).map fun x =>
      (party x.1, toBe handshakeNoLen x.2.handshakeNo, x.2.received, x.2.complete)
  respondersDone : net.respondersDone.map (fun d => (d.responder.party, d.responder.aad, d.confirmMessage, d.result)) =
    (p.completions.filter fun x => !x.2.isInitiator).map fun x =>
      (party x.1, toBe handshakeNoLen x.2.handshakeNo, some x.2.received, x.2.complete)

variable {party : ι → Party C} {p p' : Contexts C ι} {net : Network C} {k : ι} {ctx : Context C} {no : ℕ}

section Records

variable [DecidableEq ι]

lemma Recorded.setNode (h : p.Recorded party net) (hb : ctx.secretBundle = (p.node k).secretBundle)
    (he : ∀ key entry, ctx.handshakeTable key = some entry → entry.Recorded net (party k) key)
    (hlog : (p.node k).events ⊆ ctx.events) : (p.set k ctx none).Recorded party net where
  bundle j := by
    rcases eq_or_ne j k with rfl | hj
    · simp [set, hb, h.bundle]
    · simp [set, hj, h.bundle]
  entries j := by
    rcases eq_or_ne j k with rfl | hj
    · simpa [set] using he
    · simpa [set, hj] using h.entries j
  initiators := h.initiators
  responders r hr := by
    obtain ⟨j, no, hreplies, hmem⟩ := h.responders r hr
    refine ⟨j, no, hreplies, ?_⟩
    rcases eq_or_ne j k with rfl | hj
    · simpa [set] using hlog hmem
    · simpa [set, hj] using hmem
  small := by simpa [set] using h.small
  initiatorsDone := by simpa [set] using h.initiatorsDone
  respondersDone := by simpa [set] using h.respondersDone

end Records

lemma Recorded.addInitiator (h : p.Recorded party net) {i : Initiator C} (hi : Opens (party k) no i) :
    p.Recorded party (net.addInitiator i) where
  bundle := h.bundle
  entries j key entry he := (h.entries j key entry he).mono (List.subset_append_left _ _) (List.Subset.refl _)
  initiators := List.forall_mem_append.mpr ⟨h.initiators, List.forall_mem_singleton.mpr ⟨k, no, hi⟩⟩
  responders := h.responders
  small := h.small
  initiatorsDone := h.initiatorsDone
  respondersDone := h.respondersDone

lemma Recorded.addResponder (h : p.Recorded party net) {r : Responder C} (hr : Replies (party k) no r)
    (hlog : .processInitialize no ∈ (p.node k).events) : p.Recorded party (net.addResponder r) where
  bundle := h.bundle
  entries j key entry he := (h.entries j key entry he).mono (List.Subset.refl _) (List.subset_append_left _ _)
  initiators := h.initiators
  responders := List.forall_mem_append.mpr ⟨h.responders, List.forall_mem_singleton.mpr ⟨k, no, hr, hlog⟩⟩
  small := h.small
  initiatorsDone := h.initiatorsDone
  respondersDone := h.respondersDone

lemma Recorded.addInitiatorDone (h : p.Recorded party net) {c : Completion C} {d : InitiatorDone C}
    (hopens : Opens (party k) no d.initiator) (hmessage : c.message = .processReply (no + handshakeNoSocketIdInc))
    (hreply : d.replyMessage = c.received) (hresult : d.result = c.complete) :
    (⟨p.node, p.completions ++ [(k, c)]⟩ : Contexts C ι).Recorded party (net.addInitiatorDone d) := by
  have hno : c.handshakeNo = no := by simp [Completion.handshakeNo, hmessage]
  have hside : c.isInitiator = true := by simp [Completion.isInitiator, hmessage]
  refine ⟨h.bundle, h.entries, h.initiators, h.responders, ?_, ?_, ?_⟩
  · exact List.forall_mem_append.mpr ⟨h.small, List.forall_mem_singleton.mpr (hno.symm ▸ hopens.small)⟩
  · rw [Network.addInitiatorDone, List.map_append, h.initiatorsDone]
    simp [hside, hno, hopens.party, hopens.aad, hreply, hresult]
  · simpa [Network.addInitiatorDone, hside] using h.respondersDone

lemma Recorded.addResponderDone (h : p.Recorded party net) {c : Completion C} {d : ResponderDone C}
    (hreplies : Replies (party k) no d.responder)
    (hmessage : c.message = .processConfirm (no + handshakeNoSocketIdInc + handshakeNoSocketIdInc))
    (hconfirm : d.confirmMessage = some c.received) (hresult : d.result = c.complete) :
    (⟨p.node, p.completions ++ [(k, c)]⟩ : Contexts C ι).Recorded party (net.addResponderDone d) := by
  have hno : c.handshakeNo = no := by simp [Completion.handshakeNo, hmessage]
  have hside : c.isInitiator = false := by simp [Completion.isInitiator, hmessage]
  refine ⟨h.bundle, h.entries, h.initiators, h.responders, ?_, ?_, ?_⟩
  · exact List.forall_mem_append.mpr ⟨h.small, List.forall_mem_singleton.mpr (hno.symm ▸ hreplies.small)⟩
  · simpa [Network.addResponderDone, hside] using h.initiatorsDone
  · rw [Network.addResponderDone, List.map_append, h.respondersDone]
    simp [hside, hno, hreplies.party, hreplies.aad, hconfirm, hresult]

end Contexts

/-- The handshake that a complete message belongs to is one of those in the network. -/
def Pending.Recorded (net : Network C) (party : Party C) (key : ℕ) : Pending C → Prop
  | initMessage => key < 2 ^ 128
  | reply _ state => ∃ no, key = no + handshakeNoSocketIdInc ∧ ∃ i ∈ net.initiators, Opens party no i ∧ i.state = state
  | confirm _ state => ∃ no, key = no + handshakeNoSocketIdInc + handshakeNoSocketIdInc ∧
      ∃ r ∈ net.responders, Replies party no r ∧ ∃ message, r.answer = .incomplete message state

lemma HandshakeEntry.Recorded.pending {net : Network C} {party : Party C} {key : ℕ} {entry : HandshakeEntry C}
    {pending : Pending C} {o : Option Desegmenter} {keep : Desegmenter → HandshakeEntry C}
    (h : entry.Recorded net party key) (hkey : key < 2 ^ 128) (hw : entry.waiting = some (pending, o, keep)) :
    pending.Recorded net party key := by
  cases entry with
  | coolDown => cases hw
  | responderRecv d =>
    cases hw
    exact hkey
  | initiatorSent id d m state =>
    cases hw
    obtain ⟨no, hno, i, hi, hopens, -, hstate⟩ := h
    exact ⟨no, hno, i, hi, hopens, hstate⟩
  | responderSent id d m state =>
    cases hw
    obtain ⟨no, hno, r, hr, hreplies, hanswer⟩ := h
    exact ⟨no, hno, r, hr, hreplies, m, hanswer⟩

namespace Context

variable {ctx ctx' : Context C} {env : Env C} {no : ℕ} {message : Bytes}

lemma createPayload_eq_ok {ε : Type} {payload : Bytes} {id : ℕ} :
    (createPayload ctx env : Outcome ε _) = .ok (payload, id, ctx') ↔
      env.socketIds.find? (fun id => (ctx.socketTable id).isNone) = some id ∧ payload = env.payload id ∧
        ctx' = ctx.setSocket id (some none) := by
  rw [createPayload]
  cases env.socketIds.find? fun id => (ctx.socketTable id).isNone with
  | none => simp
  | some id' =>
    simp only [ok_inj, Prod.mk.injEq, Option.some_inj]
    constructor
    · rintro ⟨rfl, rfl, rfl⟩
      exact ⟨rfl, rfl, rfl⟩
    · rintro ⟨rfl, rfl, rfl⟩
      exact ⟨rfl, rfl, rfl⟩

lemma processInitialize_of_initAnswer {id : ℕ} {answer : InitOk C} (h : ctx.initAnswer env no message = .ok (id, answer)) :
    ∃ payload, ReplyState.processInitialize env.seed (toBe handshakeNoLen no) message ctx.secretBundle none
      env.secsSinceUnixEpoch env.messageAlloc (fun _ => payload) = .ok answer := by
  simp only [initAnswer, bind_eq_ok, ok_inj, Prod.mk.injEq] at h
  obtain ⟨init, hdecode, ⟨payload, id', c⟩, -, answer', hencode, -, rfl⟩ := h
  exact ⟨payload, by rw [ReplyState.processInitialize, hdecode, ok_bind, hencode]⟩

-- Without a resumption, process_initialize has to wait for the confirm message.
lemma initAnswer_ne_complete {id : ℕ} {hc : HandshakeComplete C} : ctx.initAnswer env no message ≠ .ok (id, .complete hc) := by
  intro h
  obtain ⟨payload, hp⟩ := processInitialize_of_initAnswer h
  obtain ⟨ek, r, t, hr, -⟩ := ReplyState.complete_authenticated hp
  cases hr

lemma messageCompletion_initMessage : ctx.messageCompletion env no message .initMessage = none := by
  rw [messageCompletion]
  split
  · rename_i id hc h
    exact absurd h initAnswer_ne_complete
  · rfl

lemma recvInitMessage_inv (h : (ctx.recvInitMessage env no message : Outcome Empty _) = .ok ctx') :
    ctx'.secretBundle = ctx.secretBundle ∧ ctx'.events = ctx.events ++ [.processInitialize no] ∧
      (ctx'.handshakeTable = ctx.handshakeTable ∨ ∃ id m state, ctx.initAnswer env no message = .ok (id, .incomplete m state) ∧
        ctx'.handshakeTable = Function.update ctx.handshakeTable (no + handshakeNoSocketIdInc + handshakeNoSocketIdInc)
          (some (.responderSent id none m state))) := by
  simp only [recvInitMessage, bind_eq_ok] at h
  obtain ⟨decoded, hdecoded, h⟩ := h
  obtain ⟨init, hdecode, rfl⟩ | ⟨e, -, rfl⟩ := attempt_cases hdecoded
  swap
  · cases h
    exact ⟨rfl, rfl, .inl rfl⟩
  simp only [bind_eq_ok] at h
  obtain ⟨⟨payload, id, c⟩, hpay, encoded, hencoded, h⟩ := h
  obtain rfl := createPayload_inv hpay
  obtain ⟨answer, hencode, rfl⟩ | ⟨e, -, rfl⟩ := attempt_cases hencoded
  swap
  · cases h
    exact ⟨rfl, rfl, .inl rfl⟩
  have hanswer : ctx.initAnswer env no message = .ok (id, answer) := by
    obtain ⟨hfind, rfl, -⟩ := createPayload_eq_ok.mp hpay
    have hpay' : (ctx.createPayload env : Outcome ReplyError _) = .ok (env.payload id, id, ctx.setSocket id (some none)) :=
      createPayload_eq_ok.mpr ⟨hfind, rfl, rfl⟩
    simp only [initAnswer, bind_eq_ok, ok_inj, Prod.mk.injEq]
    exact ⟨init, hdecode, _, hpay', answer, hencode, rfl, rfl⟩
  cases answer with
  | complete hc => exact absurd hanswer initAnswer_ne_complete
  | incomplete m state =>
    simp only [bind_eq_ok] at h
    obtain ⟨replyNo, hreply, confirmNo, hconfirm, h⟩ := h
    obtain rfl := addNo_eq_ok hreply
    obtain rfl := addNo_eq_ok hconfirm
    split at h
    · cases h
      exact ⟨rfl, rfl, .inl rfl⟩
    · cases h
      exact ⟨rfl, rfl, .inr ⟨id, m, state, hanswer, rfl⟩⟩

end Context

namespace Contexts

/-- One call in the network. -/
def NetStep (net net' : Network C) : Prop := ∃ a, net' = net.step a

lemma exists_run {net net' : Network C} (h : Relation.ReflTransGen NetStep net net') :
    ∃ as : List (Network.Action C), net' = as.foldl Network.step net := by
  induction h with
  | refl => exact ⟨[], rfl⟩
  | tail _ hstep ih =>
    obtain ⟨as, rfl⟩ := ih
    obtain ⟨a, rfl⟩ := hstep
    exact ⟨as ++ [a], by simp⟩

variable {party : ι → Party C} {p p' : Contexts C ι} {net : Network C} {k : ι} {ctx : Context C} {env : Env C} {no : ℕ}
  {message packet : Bytes}

lemma Recorded.setEntry (h : p.Recorded party net) {entry : HandshakeEntry C} (he : entry.Recorded net (party k) no) :
    ∀ key e, Function.update (p.node k).handshakeTable no (some entry) key = some e → e.Recorded net (party k) key := by
  intro key e htab
  rcases eq_or_ne key no with rfl | hkey
  · rw [Function.update_self, Option.some_inj] at htab
    exact htab ▸ he
  · rw [Function.update_of_ne hkey] at htab
    exact h.entries k key e htab

/-- The network can follow a call of one of the contexts. -/
def Follows (party : ι → Party C) (net : Network C) (p' : Contexts C ι) : Prop :=
  ∃ net', Relation.ReflTransGen NetStep net net' ∧ p'.Recorded party net'

lemma Recorded.follows (h : p.Recorded party net) : Follows party net p := ⟨net, .refl, h⟩

section Follows

variable [DecidableEq ι]

@[simp] lemma set_node (p : Contexts C ι) (k : ι) (ctx : Context C) (c : Option (Completion C)) : (p.set k ctx c).node k = ctx :=
  Function.update_self ..

lemma set_set (p : Contexts C ι) (k : ι) (ctx ctx' : Context C) (c : Option (Completion C)) :
    (p.set k ctx none).set k ctx' c = p.set k ctx' c := by
  simp [set]

lemma set_some (p : Contexts C ι) (k : ι) (ctx : Context C) (c : Completion C) :
    p.set k ctx (some c) = ⟨(p.set k ctx none).node, (p.set k ctx none).completions ++ [(k, c)]⟩ := by
  simp [set]

lemma Recorded.quiet (h : p.Recorded party net) (hb : ctx.secretBundle = (p.node k).secretBundle)
    (he : ∀ key entry, ctx.handshakeTable key = some entry → entry.Recorded net (party k) key)
    (hlog : (p.node k).events ⊆ ctx.events) : Follows party net (p.set k ctx none) :=
  (h.setNode hb he hlog).follows

lemma Recorded.opened (h : p.Recorded party net) {random : ℕ} (hr : random < 2 ^ 128)
    (ho : ((p.node k).openHandshake env random : Outcome Empty _) = .ok ctx) : Follows party net (p.set k ctx none) := by
  simp only [Context.openHandshake, bind_eq_ok, ok_inj] at ho
  obtain ⟨replyNo, hreply, ⟨payload, id, c⟩, hpay, o, hinit, ⟨m, state⟩, hunwrap, rfl⟩ := ho
  obtain rfl := Context.addNo_eq_ok hreply
  obtain rfl := Context.createPayload_inv hpay
  obtain rfl : o = some (m, state) := by
    cases o with
    | none => cases hunwrap
    | some x => exact congrArg some (ok_inj.mp hunwrap)
  let i : Initiator C := ⟨party k, toBe handshakeNoLen (random >>> 8), none, payload, m, state⟩
  have hstep : net.addInitiator i = net.step (.start (party k) env.seed (toBe handshakeNoLen (random >>> 8)) none payload
      env.messageAlloc) := by
    have hinit' : (InitState.initializeMessage env.seed (toBe handshakeNoLen (random >>> 8)) (party k).1 none payload
        env.messageAlloc : Outcome Empty _) = .ok (some (m, state)) := by
      rw [← h.bundle k]
      exact hinit
    simp only [Network.step, hinit']
    rfl
  have hopens : Opens (party k) (random >>> 8) i := ⟨rfl, rfl, (Nat.shiftRight_le _ _).trans_lt hr⟩
  have hrec := h.addInitiator hopens
  refine ⟨_, .single ⟨_, hstep⟩, hrec.setNode rfl (hrec.setEntry ?_) (List.Subset.refl _)⟩
  exact ⟨_, rfl, i, List.mem_append_right _ (List.mem_singleton_self i), hopens, rfl, rfl⟩

lemma Recorded.initMessage (h : p.Recorded party net) (hno : no < 2 ^ 128)
    (hr : ((p.node k).recvInitMessage env no message : Outcome Empty _) = .ok ctx) : Follows party net (p.set k ctx none) := by
  obtain ⟨hbundle, hevents, htab⟩ := Context.recvInitMessage_inv hr
  have hlog : (p.node k).events ⊆ ctx.events := hevents ▸ List.subset_append_left _ _
  rcases htab with htab | ⟨id, m, state, hanswer, htab⟩
  · exact h.quiet hbundle (htab ▸ h.entries k) hlog
  · obtain ⟨payload, hprocess⟩ := Context.processInitialize_of_initAnswer hanswer
    rw [h.bundle k] at hprocess
    let r : Responder C := ⟨party k, env.seed, toBe handshakeNoLen no, message, none, payload, .incomplete m state⟩
    have hstep : net.addResponder r = net.step (.respond (party k) env.seed (toBe handshakeNoLen no) message none
        env.secsSinceUnixEpoch env.messageAlloc payload) := by
      simp only [Network.step, hprocess]
      rfl
    have hreplies : Replies (party k) no r := ⟨rfl, rfl, hno⟩
    -- the message is processed, then the answer is recorded, then the entry is there
    have hlogged : (p.set k { ctx with handshakeTable := (p.node k).handshakeTable } none).Recorded party net :=
      h.setNode hbundle (h.entries k) hlog
    have hrec := hlogged.addResponder hreplies (by simp [hevents])
    have hentry : (HandshakeEntry.responderSent id none m state).Recorded (net.addResponder r) (party k)
        (no + handshakeNoSocketIdInc + handshakeNoSocketIdInc) :=
      ⟨no, rfl, r, List.mem_append_right _ (List.mem_singleton_self r), hreplies, rfl⟩
    have hentries := hrec.setEntry hentry
    rw [← set_set p k _ ctx]
    refine ⟨_, .single ⟨_, hstep⟩, hrec.setNode (by simp) ?_ (by simp)⟩
    rw [htab]
    simpa using hentries

lemma Recorded.dropped (h : p.Recorded party net) (e : Event) (id : ℕ) :
    Follows party net (p.set k (((p.node k).log e).setSocket id none) none) :=
  h.quiet rfl (h.entries k) (List.subset_append_left _ _)

lemma Recorded.completed (h : p.Recorded party net) (e : Event) (id : ℕ) :
    (p.set k (((p.node k).log e).handshakeComplete id) none).Recorded party net := by
  refine h.setNode rfl (h.entries k) ?_
  exact List.Subset.trans (List.subset_append_left _ _) (List.subset_append_left _ _)

lemma Recorded.reply (h : p.Recorded party net) {id : ℕ} {state : InitState C}
    (hp : (Pending.reply id state).Recorded net (party k) no)
    (hr : ((p.node k).dispatch env no (.reply id state) message : Outcome Empty _) = .ok ctx) :
    Follows party net (p.set k ctx ((p.node k).messageCompletion env no message (.reply id state))) := by
  obtain ⟨r, hattempt, hr⟩ := bind_eq_ok.mp hr
  obtain ⟨hc, hprocess, rfl⟩ | ⟨e, hprocess, rfl⟩ := attempt_cases hattempt
  · cases hr
    obtain ⟨opened, rfl, i, hi, hopens, rfl⟩ := hp
    obtain ⟨n, hn⟩ := List.mem_iff_getElem?.mp hi
    have hstep : net.addInitiatorDone ⟨i, message, hc⟩ =
        net.step (.reply n message env.secsSinceUnixEpoch env.bundleAlloc env.messageAlloc) := by
      simp only [Network.step, hn, hprocess]
    simp only [Context.messageCompletion, hprocess, set_some]
    exact ⟨_, .single ⟨_, hstep⟩, (h.completed _ _).addInitiatorDone hopens rfl rfl rfl⟩
  · cases hr
    simp only [Context.messageCompletion, hprocess, err]
    exact h.dropped _ _

lemma Recorded.confirm (h : p.Recorded party net) {id : ℕ} {state : ReplyState C}
    (hp : (Pending.confirm id state).Recorded net (party k) no)
    (hr : ((p.node k).dispatch env no (.confirm id state) message : Outcome Empty _) = .ok ctx) :
    Follows party net (p.set k ctx ((p.node k).messageCompletion env no message (.confirm id state))) := by
  obtain ⟨r, hattempt, hr⟩ := bind_eq_ok.mp hr
  obtain ⟨hc, hprocess, rfl⟩ | ⟨e, hprocess, rfl⟩ := attempt_cases hattempt
  · cases hr
    obtain ⟨opened, rfl, r, hr, hreplies, m, hanswer⟩ := hp
    obtain ⟨n, hn⟩ := List.mem_iff_getElem?.mp hr
    have hstep : net.addResponderDone ⟨r, some message, hc⟩ =
        net.step (.confirm n message env.secsSinceUnixEpoch env.bundleAlloc) := by
      simp only [Network.step, hn, hanswer, hprocess]
    simp only [Context.messageCompletion, hprocess, set_some]
    exact ⟨_, .single ⟨_, hstep⟩, (h.completed _ _).addResponderDone hreplies rfl rfl rfl⟩
  · cases hr
    simp only [Context.messageCompletion, hprocess, err]
    exact h.dropped _ _

lemma Recorded.dispatch (h : p.Recorded party net) {pending : Pending C} (hp : pending.Recorded net (party k) no)
    (hr : ((p.node k).dispatch env no pending message : Outcome Empty _) = .ok ctx) :
    Follows party net (p.set k ctx ((p.node k).messageCompletion env no message pending)) := by
  cases pending with
  | initMessage =>
    rw [Context.messageCompletion_initMessage]
    exact h.initMessage hp hr
  | reply id state => exact h.reply hp hr
  | confirm id state => exact h.confirm hp hr

lemma Recorded.whole (h : p.Recorded party net) {pending : Pending C} (hp : pending.Recorded net (party k) no)
    (hr : (((p.node k).setEntry no .coolDown).dispatch env no pending message : Outcome Empty _) = .ok ctx) :
    Follows party net (p.set k ctx (((p.node k).setEntry no .coolDown).messageCompletion env no message pending)) := by
  have hcold : (p.set k ((p.node k).setEntry no .coolDown) none).Recorded party net :=
    h.setNode rfl (h.setEntry trivial) (List.Subset.refl _)
  have hnode : (p.set k ((p.node k).setEntry no .coolDown) none).node k = (p.node k).setEntry no .coolDown := by simp
  rw [← hnode] at hr
  have hnext := hcold.dispatch hp hr
  rwa [set_set, set_node] at hnext

lemma Recorded.received (h : p.Recorded party net) (hr : ((p.node k).recv env packet : Outcome Empty _) = .ok ctx) :
    Follows party net (p.set k ctx ((p.node k).completion env packet)) := by
  obtain ⟨⟨fragment, c⟩, hfrag, hr⟩ := bind_eq_ok.mp hr
  rw [Context.completion, hfrag]
  rcases Context.recvFragment_found hfrag with _ | ⟨socketId, idx⟩ | ⟨ha, htab⟩ | ⟨ha, htab, hw⟩ | ⟨ha, htab⟩ | ⟨ha, htab, hw⟩
  · cases hr
    exact h.quiet rfl (h.entries k) (List.Subset.refl _)
  · rcases Context.recvData_cases hr with rfl | ⟨plaintext, rfl⟩
    · exact h.quiet rfl (h.entries k) (List.Subset.refl _)
    · exact h.quiet rfl (h.entries k) (List.subset_append_left _ _)
  · cases hr
    exact h.quiet rfl (h.setEntry trivial) (List.Subset.refl _)
  · cases hr
    exact h.quiet rfl (h.setEntry ((h.entries k _ _ htab).keep hw _)) (List.Subset.refl _)
  · have hno := ha.add_lt
    exact h.whole (show _ < 2 ^ 128 by omega) hr
  · have hno := ha.add_lt
    exact h.whole ((h.entries k _ _ htab).pending (by omega) hw) hr

lemma Recorded.step (h : p.Recorded party net) (hstep : Step p p') : Follows party net p' := by
  cases hstep with
  | opened k hr _ ho => exact h.opened hr ho
  | received k hr => exact h.received hr
  | torn k _ _ htab hw =>
    exact h.quiet rfl (h.setEntry ((h.entries k _ _ htab).keep hw _)) (List.Subset.refl _)

omit [DecidableEq ι] in
lemma New.recorded (h : p.New party) : p.Recorded party Network.empty where
  bundle := h.bundle
  entries k key entry he := by
    rw [(h.node k).table] at he
    cases he
  initiators _ hi := absurd hi List.not_mem_nil
  responders _ hr := absurd hr List.not_mem_nil
  small := by simp [h.completions]
  initiatorsDone := by simp [h.completions, Network.empty]
  respondersDone := by simp [h.completions, Network.empty]

lemma Reached.exists_recorded (h : p.Reached party) : ∃ as, p.Recorded party (Network.run as) := by
  obtain ⟨p₀, hnew, hrun⟩ := h
  have hstep : ∀ q q' : Contexts C ι, ∀ net, q.Recorded party net → Step q q' → Follows party net q' :=
    fun _ _ _ hrec hstep => hrec.step hstep
  obtain ⟨net, hsteps, hrec⟩ := simulates_run hstep hnew.recorded hrun
  obtain ⟨as, rfl⟩ := exists_run hsteps
  exact ⟨as, hrec⟩

end Follows

end Contexts

/-! What the contexts log, against the calls of `handshake_complete`. -/

namespace Context

variable {ctx ctx' : Context C} {env : Env C} {no : ℕ} {message packet : Bytes}

/-- The events of a call: the message that was processed, and the socket id if the handshake is complete by now. -/
def Logs (ctx ctx' : Context C) : Option (Completion C) → Prop
  | some c => ctx'.events = ctx.events ++ [c.message, .handshakeComplete c.newSocketId] ∧ ∃ no, c.message.key = some no
  | none => ∃ es, ctx'.events = ctx.events ++ es ∧ ∀ e ∈ es, e.handed = none

lemma Logs.nothing (h : ctx'.events = ctx.events) : ctx.Logs ctx' none := ⟨[], by rw [h, List.append_nil], nofun⟩

lemma Logs.one {e : Event} (h : ctx'.events = ctx.events ++ [e]) (he : e.handed = none) : ctx.Logs ctx' none :=
  ⟨[e], h, List.forall_mem_singleton.mpr he⟩

lemma Logs.fresh {c : Completion C} (h : ctx.Logs ctx' (some c)) (he : Effect (fun _ => True) ctx ctx') :
    ∃ no, c.message.key = some no ∧ ctx.handshakeTable no ≠ some .coolDown ∧ ctx'.handshakeTable no = some .coolDown := by
  obtain ⟨hes, no, hno⟩ := h
  have hprocessed : ctx'.processed = ctx.processed ++ [no] := by
    rw [processed, hes, List.filterMap_append, List.filterMap_cons_some hno]
    rfl
  rcases he.processed with hsame | ⟨no', hone, hwarm, hcold⟩
  · rw [hsame] at hprocessed
    exact absurd hprocessed (by simp)
  · rw [hone, List.append_cancel_left_eq, List.singleton_inj] at hprocessed
    exact ⟨no, hno, hprocessed ▸ hwarm, hprocessed ▸ hcold⟩

lemma Logs.handed {c : Option (Completion C)} (h : ctx.Logs ctx' c) : ctx'.events.filterMap Event.handed =
    ctx.events.filterMap Event.handed ++ (c.map fun c => c.newSocketId).toList := by
  cases c with
  | none =>
    obtain ⟨es, hes, hnone⟩ := h
    rw [hes, List.filterMap_append, List.filterMap_eq_nil_iff.mpr hnone]
    rfl
  | some c =>
    obtain ⟨hes, no, hno⟩ := h
    have hmessage : c.message.handed = none := by
      cases hm : c.message with
      | handshakeComplete id =>
        rw [hm] at hno
        cases hno
      | _ => rfl
    rw [hes, List.filterMap_append, List.filterMap_cons_none hmessage]
    rfl

lemma dispatch_logs {pending : Pending C} (h : (ctx.dispatch env no pending message : Outcome Empty _) = .ok ctx') :
    ctx.Logs ctx' (ctx.messageCompletion env no message pending) := by
  cases pending with
  | initMessage =>
    rw [messageCompletion_initMessage]
    exact .one (recvInitMessage_inv h).2.1 rfl
  | reply id state =>
    obtain ⟨r, hattempt, h⟩ := bind_eq_ok.mp h
    obtain ⟨hc, hprocess, rfl⟩ | ⟨e, hprocess, rfl⟩ := attempt_cases hattempt
    · cases h
      simp only [messageCompletion, hprocess]
      exact ⟨List.append_assoc _ _ _, no, rfl⟩
    · cases h
      simp only [messageCompletion, hprocess, err]
      exact .one rfl rfl
  | confirm id state =>
    obtain ⟨r, hattempt, h⟩ := bind_eq_ok.mp h
    obtain ⟨hc, hprocess, rfl⟩ | ⟨e, hprocess, rfl⟩ := attempt_cases hattempt
    · cases h
      simp only [messageCompletion, hprocess]
      exact ⟨List.append_assoc _ _ _, no, rfl⟩
    · cases h
      simp only [messageCompletion, hprocess, err]
      exact .one rfl rfl

lemma recv_logs (h : (ctx.recv env packet : Outcome Empty _) = .ok ctx') : ctx.Logs ctx' (ctx.completion env packet) := by
  obtain ⟨⟨fragment, c⟩, hfrag, h⟩ := bind_eq_ok.mp h
  rw [completion, hfrag]
  rcases recvFragment_found hfrag with _ | ⟨socketId, idx⟩ | ⟨ha, htab⟩ | ⟨ha, htab, hw⟩ | ⟨ha, htab⟩ | ⟨ha, htab, hw⟩
  · cases h
    exact .nothing rfl
  · rcases recvData_cases h with rfl | ⟨plaintext, rfl⟩
    · exact .nothing rfl
    · exact .one rfl rfl
  · cases h
    exact .nothing rfl
  · cases h
    exact .nothing rfl
  · exact dispatch_logs h
  · exact dispatch_logs h

end Context

namespace Contexts

/-- What the contexts logged are the calls of `handshake_complete`, and no message led to two of them. -/
structure Tallied [DecidableEq ι] (p : Contexts C ι) : Prop where
  handed : ∀ k, (p.node k).events.filterMap Event.handed = (p.completions.filter fun x => x.1 = k).map fun x => x.2.newSocketId
  cold : ∀ x ∈ p.completions, ∃ no, x.2.message.key = some no ∧ (p.node x.1).handshakeTable no = some .coolDown
  once : (p.completions.map fun x => (x.1, x.2.message.key)).Nodup

variable [DecidableEq ι] {party : ι → Party C} {p p' : Contexts C ι} {k : ι} {ctx : Context C}

lemma Tallied.set (h : p.Tallied) {c : Option (Completion C)} (hlogs : (p.node k).Logs ctx c)
    (he : Context.Effect (fun _ => True) (p.node k) ctx) : (p.set k ctx c).Tallied := by
  have hcold : ∀ x ∈ p.completions, ∃ no, x.2.message.key = some no ∧
      ((p.set k ctx c).node x.1).handshakeTable no = some .coolDown := by
    intro x hx
    obtain ⟨no, hkey, htab⟩ := h.cold x hx
    refine ⟨no, hkey, ?_⟩
    rcases eq_or_ne x.1 k with hk | hk
    · rw [hk] at htab ⊢
      rw [set_node]
      exact he.coolDown htab
    · simpa [Contexts.set, hk] using htab
  refine ⟨fun j => ?_, ?_, ?_⟩
  · rcases eq_or_ne j k with rfl | hj
    · rw [set_node, hlogs.handed, h.handed]
      cases c <;> simp [Contexts.set]
    · have hnode : (p.set k ctx c).node j = p.node j := Function.update_of_ne hj ..
      rw [hnode, h.handed]
      cases c <;> simp [Contexts.set, hj.symm]
  · cases c with
    | none => simpa [Contexts.set] using hcold
    | some c =>
      obtain ⟨no, hno, -, hnew⟩ := hlogs.fresh he
      refine List.forall_mem_append.mpr ⟨hcold, List.forall_mem_singleton.mpr ⟨no, hno, ?_⟩⟩
      rwa [set_node]
  · cases c with
    | none => simpa [Contexts.set] using h.once
    | some c =>
      obtain ⟨no, hno, hwarm, -⟩ := hlogs.fresh he
      have hnew : (k, c.message.key) ∉ p.completions.map fun x => (x.1, x.2.message.key) := by
        rintro hmem
        obtain ⟨x, hx, heq⟩ := List.mem_map.mp hmem
        obtain ⟨no', hkey, htab⟩ := h.cold x hx
        obtain ⟨rfl, hsame⟩ := Prod.mk.inj heq
        rw [hkey, hno, Option.some_inj] at hsame
        exact hwarm (hsame ▸ htab)
      have hall := h.once.concat hnew
      rw [List.concat_eq_append] at hall
      simpa [Contexts.set] using hall

lemma Tallied.step (h : p.Tallied) (hstep : Step p p') : p'.Tallied := by
  cases hstep with
  | opened k hr hfresh ho =>
    refine h.set (.nothing ?_) (Context.openHandshake_effect hr hfresh ho)
    simp only [Context.openHandshake, bind_eq_ok, ok_inj] at ho
    obtain ⟨replyNo, -, ⟨payload, id, c⟩, hpay, o, -, ⟨m, state⟩, -, rfl⟩ := ho
    obtain rfl := Context.createPayload_inv hpay
    rfl
  | received k hr => exact h.set (Context.recv_logs hr) (Context.recv_effect trivial hr)
  | torn k _ _ htab hw => exact h.set (.nothing rfl) (.kept htab hw)

lemma Reached.tallied (h : p.Reached party) : p.Tallied := by
  obtain ⟨p₀, hnew, hrun⟩ := h
  induction hrun with
  | refl => exact ⟨fun k => by simp [(hnew.node k).events, hnew.completions], by simp [hnew.completions], by simp [hnew.completions]⟩
  | tail _ hstep ih => exact ih.step hstep

end Contexts

end Pqsnet.Session
