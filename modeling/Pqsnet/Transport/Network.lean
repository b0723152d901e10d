import Pqsnet.Transport.Agreement

/-! Honest parties with any number of handshakes at once. What reaches them is chosen by the network. -/

namespace Pqsnet.Transport

open Checked Outcome

variable {C : CryptoAndMem}

abbrev Party (C : CryptoAndMem) := { sk : SecretBundle C // sk.Built }

structure Initiator (C : CryptoAndMem) where
  party : Party C
  aad : Bytes
  resumption : Option (Resumption C)
  payload : Bytes
  initMessage : Bytes
  state : InitState C

structure Responder (C : CryptoAndMem) where
  party : Party C
  seed : C.Seed
  aad : Bytes
  initMessage : Bytes
  resumption : Option (Resumption C)
  payload : Bytes
  answer : InitOk C

structure InitiatorDone (C : CryptoAndMem) where
  initiator : Initiator C
  replyMessage : Bytes
  result : HandshakeComplete C

-- Without a confirm message the handshake was resumed.
structure ResponderDone (C : CryptoAndMem) where
  responder : Responder C
  confirmMessage : Option Bytes
  result : HandshakeComplete C

/-- All that the honest parties did so far. -/
structure Network (C : CryptoAndMem) where
  initiators : List (Initiator C)
  responders : List (Responder C)
  initiatorsDone : List (InitiatorDone C)
  respondersDone : List (ResponderDone C)

def InitOk.message : InitOk C → Bytes
  | .complete hc => hc.messageToSend.getD []
  | .incomplete message _ => message

namespace Network

/-- A call of one party. A handshake in progress is named by its place in the lists. -/
inductive Action (C : CryptoAndMem)
  | start (party : Party C) (seed : C.Seed) (aad : Bytes) (resumption : Option (Resumption C)) (payload : Bytes)
      (alloc : C.MessageAlloc)
  | respond (party : Party C) (seed : C.Seed) (aad initMessage : Bytes) (resumption : Option (Resumption C))
      (secs : UInt64) (alloc : C.MessageAlloc) (payload : Bytes)
  | reply (i : ℕ) (replyMessage : Bytes) (secs : UInt64) (bundleAlloc : C.BundleAlloc) (messageAlloc : C.MessageAlloc)
  | confirm (r : ℕ) (confirmMessage : Bytes) (secs : UInt64) (alloc : C.BundleAlloc)

def addInitiator (net : Network C) (i : Initiator C) : Network C := { net with initiators := net.initiators ++ [i] }

def addResponder (net : Network C) (r : Responder C) : Network C := { net with responders := net.responders ++ [r] }

def addInitiatorDone (net : Network C) (d : InitiatorDone C) : Network C :=
  { net with initiatorsDone := net.initiatorsDone ++ [d] }

def addResponderDone (net : Network C) (d : ResponderDone C) : Network C :=
  { net with respondersDone := net.respondersDone ++ [d] }

-- A call that fails, or that names a handshake which is not there, leaves nothing behind.
def step (net : Network C) : Action C → Network C
  | .start party seed aad resumption payload alloc =>
    match (InitState.initializeMessage seed aad party.1 resumption payload alloc : Outcome Empty _) with
    | .ok (some (initMessage, state)) => net.addInitiator ⟨party, aad, resumption, payload, initMessage, state⟩
    | _ => net
  | .respond party seed aad initMessage resumption secs alloc payload =>
    match ReplyState.processInitialize seed aad initMessage party.1 resumption secs alloc (fun _ => payload) with
    | .ok answer =>
      let r : Responder C := ⟨party, seed, aad, initMessage, resumption, payload, answer⟩
      match answer with
      | .complete hc => (net.addResponder r).addResponderDone ⟨r, none, hc⟩
      | .incomplete _ _ => net.addResponder r
    | .error _ => net
  | .reply i replyMessage secs bundleAlloc messageAlloc =>
    match net.initiators[i]? with
    | some initiator =>
      match initiator.state.processReply replyMessage secs bundleAlloc messageAlloc with
      | .ok hc => net.addInitiatorDone ⟨initiator, replyMessage, hc⟩
      | .error _ => net
    | none => net
  | .confirm r confirmMessage secs alloc =>
    match net.responders[r]? with
    | some responder =>
      match responder.answer with
      | .complete _ => net
      | .incomplete _ state =>
        match state.processConfirm confirmMessage secs alloc with
        | .ok hc => net.addResponderDone ⟨responder, some confirmMessage, hc⟩
        | .error _ => net
    | none => net

def empty : Network C := ⟨[], [], [], []⟩

def run (as : List (Action C)) : Network C := as.foldl step empty

end Network

/-! Every record is what a call of the program returned. -/

def Initiator.Made (i : Initiator C) : Prop :=
  ∃ seed alloc, (InitState.initializeMessage seed i.aad i.party.1 i.resumption i.payload alloc : Outcome Empty _) =
    .ok (some (i.initMessage, i.state))

def Responder.Made (r : Responder C) : Prop :=
  ∃ secs alloc, ReplyState.processInitialize r.seed r.aad r.initMessage r.party.1 r.resumption secs alloc
    (fun _ => r.payload) = .ok r.answer

def InitiatorDone.Made (d : InitiatorDone C) : Prop :=
  ∃ secs ba ma, d.initiator.state.processReply d.replyMessage secs ba ma = .ok d.result

def ResponderDone.Made (d : ResponderDone C) : Prop :=
  ReplyState.Completed d.responder.answer d.responder.answer.message d.confirmMessage d.result

structure Network.Ok (net : Network C) : Prop where
  initiators : ∀ i ∈ net.initiators, i.Made
  responders : ∀ r ∈ net.responders, r.Made
  initiatorsDone : ∀ d ∈ net.initiatorsDone, d.initiator ∈ net.initiators ∧ d.Made
  respondersDone : ∀ d ∈ net.respondersDone, d.responder ∈ net.responders ∧ d.Made

namespace Network

lemma Ok.addInitiator {net : Network C} (h : net.Ok) {i : Initiator C} (hi : i.Made) : (net.addInitiator i).Ok where
  initiators := List.forall_mem_append.mpr ⟨h.initiators, List.forall_mem_singleton.mpr hi⟩
  responders := h.responders
  initiatorsDone d hd := ⟨List.mem_append_left _ (h.initiatorsDone d hd).1, (h.initiatorsDone d hd).2⟩
  respondersDone := h.respondersDone

lemma Ok.addResponder {net : Network C} (h : net.Ok) {r : Responder C} (hr : r.Made) : (net.addResponder r).Ok where
  initiators := h.initiators
  responders := List.forall_mem_append.mpr ⟨h.responders, List.forall_mem_singleton.mpr hr⟩
  initiatorsDone := h.initiatorsDone
  respondersDone d hd := ⟨List.mem_append_left _ (h.respondersDone d hd).1, (h.respondersDone d hd).2⟩

lemma Ok.addInitiatorDone {net : Network C} (h : net.Ok) {d : InitiatorDone C} (hi : d.initiator ∈ net.initiators)
    (hd : d.Made) : (net.addInitiatorDone d).Ok where
  initiators := h.initiators
  responders := h.responders
  initiatorsDone := List.forall_mem_append.mpr ⟨h.initiatorsDone, List.forall_mem_singleton.mpr ⟨hi, hd⟩⟩
  respondersDone := h.respondersDone

lemma Ok.addResponderDone {net : Network C} (h : net.Ok) {d : ResponderDone C} (hr : d.responder ∈ net.responders)
    (hd : d.Made) : (net.addResponderDone d).Ok where
  initiators := h.initiators
  responders := h.responders
  initiatorsDone := h.initiatorsDone
  respondersDone := List.forall_mem_append.mpr ⟨h.respondersDone, List.forall_mem_singleton.mpr ⟨hr, hd⟩⟩

lemma complete_messageToSend {seed : C.Seed} {aad m : Bytes} {sk : SecretBundle C} {resumption : Option (Resumption C)}
    {secs : UInt64} {alloc : C.MessageAlloc} {createPayload : Unit → Bytes} {hc : HandshakeComplete C}
    (h : ReplyState.processInitialize seed aad m sk resumption secs alloc createPayload = .ok (.complete hc)) :
    hc.messageToSend = some (InitOk.message (.complete hc)) := by
  obtain ⟨init, _, hr⟩ := ReplyState.processInitialize_inv h
  cases hr
  rfl

lemma Ok.step {net : Network C} (h : net.Ok) (a : Action C) : (net.step a).Ok := by
  cases a with
  | start party seed aad resumption payload alloc =>
    simp only [Network.step]
    split
    · rename_i m state hm
      exact h.addInitiator ⟨seed, alloc, hm⟩
    · exact h
  | respond party seed aad m resumption secs alloc payload =>
    simp only [Network.step]
    split
    · rename_i answer hm
      cases answer with
      | complete hc =>
        have hr := h.addResponder (r := ⟨party, seed, aad, m, resumption, payload, .complete hc⟩) ⟨secs, alloc, hm⟩
        exact hr.addResponderDone (by simp [Network.addResponder]) (.resume (complete_messageToSend hm))
      | incomplete reply state =>
        exact h.addResponder (r := ⟨party, seed, aad, m, resumption, payload, .incomplete reply state⟩) ⟨secs, alloc, hm⟩
    · exact h
  | reply i m secs ba ma =>
    simp only [Network.step]
    split
    · rename_i initiator hi
      split
      · rename_i hc hm
        exact h.addInitiatorDone (d := ⟨initiator, m, hc⟩) (List.mem_of_getElem? hi) ⟨secs, ba, ma, hm⟩
      · exact h
    · exact h
  | confirm r m secs alloc =>
    simp only [Network.step]
    split
    · rename_i responder hr
      split
      · exact h
      · rename_i reply state ha
        split
        · rename_i hc hm
          have hd : (⟨responder, some m, hc⟩ : ResponderDone C).Made := by
            rw [ResponderDone.Made, ha]
            exact .confirm hm
          exact h.addResponderDone (List.mem_of_getElem? hr) hd
        · exact h
    · exact h

lemma Ok.empty : (empty : Network C).Ok := by
  constructor <;> simp [Network.empty]

lemma Ok.run (as : List (Action C)) : (run as).Ok := by
  suffices h : ∀ net : Network C, net.Ok → (as.foldl Network.step net).Ok from h _ Ok.empty
  induction as with
  | nil => exact fun _ h => h
  | cons a as ih => exact fun net h => ih _ (h.step a)

end Network

/-! What is mixed in, signed and checked. -/

namespace InitiatorDone

def sharedSecret (d : InitiatorDone C) : Option (Arr Mlkem1024.sharedSecretKeyLen) :=
  d.initiator.state.sharedSecret d.replyMessage

-- A reply of the fallback type is answered as if there were no resumption.
def resumptionKey (d : InitiatorDone C) : Option ResumptionKey :=
  if d.replyMessage.head? = some Reply.handshakeTypeFallback then none else d.initiator.resumption.map Resumption.key

def transcript (d : InitiatorDone C) (confirmMessage : Option Bytes) : List Entry :=
  Transport.transcript d.initiator.aad d.initiator.initMessage d.resumptionKey d.replyMessage
    (secretBytes d.sharedSecret) confirmMessage

end InitiatorDone

namespace Responder

def sharedSecret (r : Responder C) : Option (Arr Mlkem1024.sharedSecretKeyLen) :=
  ReplyState.sharedSecret r.seed r.initMessage

def replyMessage (r : Responder C) : Bytes := r.answer.message

def transcript (r : Responder C) (confirmMessage : Option Bytes) : List Entry :=
  Transport.transcript r.aad r.initMessage (r.resumption.map Resumption.key) r.replyMessage
    (secretBytes r.sharedSecret) confirmMessage

end Responder

def binding (C : CryptoAndMem) (es : List Entry) : Arr channelBindingLen :=
  ((chain C).replay SymmetricState.salted es).channelBinding

/-- A signature over the channel binding of some entries, in the context of a step. -/
structure Signed (C : CryptoAndMem) where
  key : C.SecretKey
  stepNo : UInt8
  entries : List Entry

/-- A signature that was accepted. -/
structure Verified (C : CryptoAndMem) where
  key : C.PublicKey
  stepNo : UInt8
  entries : List Entry

-- The last entry of a message is the box of the signature, so the signature covers what is before it.

def Initiator.signed (i : Initiator C) : List (Signed C) :=
  match i.resumption with
  | none => []
  | some r => [⟨i.party.1.onlineSecretKey, 12, (initEntries i.aad i.initMessage (some r.key)).dropLast⟩]

def Responder.signed (r : Responder C) : Signed C := ⟨r.party.1.onlineSecretKey, 5, (r.transcript none).dropLast⟩

def InitiatorDone.signed (d : InitiatorDone C) : List (Signed C) :=
  match d.result.messageToSend with
  | none => []
  | some m => [⟨d.initiator.party.1.onlineSecretKey, 7, (d.transcript (some m)).dropLast⟩]

def InitiatorDone.verified (d : InitiatorDone C) : Verified C :=
  ⟨d.result.remoteKeyBundle.onlineKey, 5, (d.transcript none).dropLast⟩

def ResponderDone.verified (d : ResponderDone C) : Verified C :=
  match d.confirmMessage with
  | none => ⟨d.result.remoteKeyBundle.onlineKey, 12,
      (initEntries d.responder.aad d.responder.initMessage (d.responder.resumption.map Resumption.key)).dropLast⟩
  | some m => ⟨d.result.remoteKeyBundle.onlineKey, 7, (d.responder.transcript (some m)).dropLast⟩

def InitiatorDone.hashed (d : InitiatorDone C) : List Bytes :=
  Transport.hashed C (d.transcript d.result.messageToSend) (splitStep d.result.messageToSend)

def Responder.hashed (r : Responder C) : List Bytes := (chain C).inputs SymmetricState.salted (r.transcript none)

def ResponderDone.hashed (d : ResponderDone C) : List Bytes :=
  Transport.hashed C (d.responder.transcript d.confirmMessage) (splitStep d.confirmMessage)

namespace Network

def signed (net : Network C) : List (Signed C) :=
  net.initiators.flatMap Initiator.signed ++ net.responders.map Responder.signed ++
    net.initiatorsDone.flatMap InitiatorDone.signed

def verified (net : Network C) : List (Verified C) :=
  net.initiatorsDone.map InitiatorDone.verified ++ net.respondersDone.map ResponderDone.verified

def hashed (net : Network C) : List Bytes :=
  net.responders.flatMap Responder.hashed ++ net.initiatorsDone.flatMap InitiatorDone.hashed ++
    net.respondersDone.flatMap ResponderDone.hashed

end Network

/-- No two inputs have the same channel binding. -/
def CryptoAndMem.BindingFree (C : CryptoAndMem) (inputs : List Bytes) : Prop :=
  ∀ x ∈ inputs, ∀ y ∈ inputs, ((chain C).hash x).channelBinding = ((chain C).hash y).channelBinding → x = y

/-- The assumptions on the primitives, for one run: `owner` gives the secret key of an honest party that a public
key belongs to, if it is one. -/
structure Network.Trusted (net : Network C) (owner : C.PublicKey → Option C.SecretKey) : Prop where
  unforged : ∀ v ∈ net.verified, ∀ sk, owner v.key = some sk →
    ∃ s ∈ net.signed, s.key = sk ∧ s.stepNo = v.stepNo ∧ binding C s.entries = binding C v.entries
  collisionFree : C.CollisionFree net.hashed
  bindingFree : C.BindingFree net.hashed

end Pqsnet.Transport
