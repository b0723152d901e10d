import Pqsnet.Transport.Honest

/-! Two honest parties that exchange their messages unmodified. -/

namespace Pqsnet.Transport

open Checked Outcome

variable {C : CryptoAndMem}

section Full

variable (hC : C.Correct) {a b : SecretBundle C} (ha : a.Built) (hb : b.Built) {secs₂ secs₃ : UInt64}
  (hbt : b.publicBundle.ValidAt secs₂) (hat : a.publicBundle.ValidAt secs₃) (secs₁ : UInt64)
  (seed₁ seed₂ : C.Seed) (aad payload : Bytes) (createPayload : Unit → Bytes) (ma₁ ma₂ ma₃ : C.MessageAlloc)
  (ba₁ ba₂ : C.BundleAlloc)

include hC ha hb hbt hat

lemma full_handshake_steps {ε : Type} : ∃ ss ct kb kb', kb.Same b.publicBundle ∧ kb'.Same a.publicBundle ∧
    C.encapsulate seed₂ (C.generate seed₁).1 = some (ss, ct) ∧
    C.decapsulate (C.generate seed₁).2 ct = some ss ∧
    let s : SymmetricState C := (SymmetricState.new aad).mix 1 (C.generate seed₁).1.bytes
    let init : InitState C := ⟨s, none, (C.generate seed₁).2, payload, a, none⟩
    let decoded : Initialized C := ⟨ss, ct, Reply.handshakeTypeFull, s, none, none⟩
    let replyMessage := ReplyState.replyBytes decoded b (createPayload ())
    let reply : ReplyState C := ⟨(ReplyState.replySealed decoded b (createPayload ())).1, none, false⟩
    let confirm := reply.symmetric.sealTail 6 7 a (a.publicBundle.publicBytes ++ payload)
    (InitState.initializeMessage seed₁ aad a none payload ma₁ : Outcome ε _) =
      .ok (some ((C.generate seed₁).1.bytes, init)) ∧
    ReplyState.processInitialize seed₂ aad (C.generate seed₁).1.bytes b none secs₁ ma₂ createPayload =
      .ok (.incomplete replyMessage reply) ∧
    init.processReply replyMessage secs₂ ba₁ ma₃ =
      .ok ⟨some confirm.2, confirm.1.split 8, kb, createPayload ()⟩ ∧
    reply.processConfirm confirm.2 secs₃ ba₂ = .ok ⟨none, confirm.1.split 8, kb', payload⟩ := by
  obtain ⟨m, hm⟩ := hC.mallocMessage ma₁ Initialize.ephemeralEncKeyEnd
  obtain ⟨ss, ct, henc, hdec⟩ := hC.decapsulate_encapsulate seed₁ seed₂
  let s : SymmetricState C := (SymmetricState.new aad).mix 1 (C.generate seed₁).1.bytes
  let init : InitState C := ⟨s, none, (C.generate seed₁).2, payload, a, none⟩
  let decoded : Initialized C := ⟨ss, ct, Reply.handshakeTypeFull, s, none, none⟩
  let reply : ReplyState C := ⟨(ReplyState.replySealed decoded b (createPayload ())).1, none, false⟩
  have hp : ReplyState.replyPlaintext decoded b (createPayload ()) =
      b.publicBundle.publicBytes ++ createPayload () := by
    rw [ReplyState.replyPlaintext, if_neg Reply.full_ne_resume]
  have hdecode := ReplyState.decodeInitialize_full seed₂ aad b secs₁ (C.generate seed₁).1
  rw [henc, okOr_some, ok_bind] at hdecode
  obtain ⟨kb, hkb, hprocess⟩ := init.processReply_sealed hC Reply.full_ne_resume
    (fun h => absurd h Reply.full_ne_fallback) (fun _ h => absurd h.symm (Option.some_ne_none _)) rfl hdec hb hbt (createPayload ()) ba₁ ma₃ rfl
    (r := ReplyState.replySealed decoded b (createPayload ())) (by rw [← hp]; rfl)
  obtain ⟨kb', hkb', hconfirm⟩ := reply.processConfirm_sealed hC (fun _ h => absurd h.symm (Option.some_ne_none _))
    (fun h => Bool.false_ne_true h.1) ha hat payload ba₂ rfl
  exact ⟨ss, ct, kb, kb', hkb, hkb', henc, hdec, InitState.initializeMessage_full seed₁ aad a payload hm,
    ReplyState.processInitialize_incomplete hC hdecode ma₂ createPayload rfl, hprocess, hconfirm⟩

theorem full_handshake_completes {ε : Type} :
    ∃ initMessage init replyMessage reply hi confirmMessage hr,
      (InitState.initializeMessage seed₁ aad a none payload ma₁ : Outcome ε _) =
        .ok (some (initMessage, init)) ∧
      ReplyState.processInitialize seed₂ aad initMessage b none secs₁ ma₂ createPayload =
        .ok (.incomplete replyMessage reply) ∧
      init.processReply replyMessage secs₂ ba₁ ma₃ = .ok hi ∧ hi.messageToSend = some confirmMessage ∧
      reply.processConfirm confirmMessage secs₃ ba₂ = .ok hr ∧
      hi.keys = hr.keys ∧ hi.recvPayload = createPayload () ∧ hr.recvPayload = payload ∧
      hi.remoteKeyBundle.Same b.publicBundle ∧ hr.remoteKeyBundle.Same a.publicBundle := by
  obtain ⟨ss, ct, kb, kb', hkb, hkb', _, _, hinit, hreply, hprocess, hconfirm⟩ := full_handshake_steps (ε := ε)
    hC ha hb hbt hat secs₁ seed₁ seed₂ aad payload createPayload ma₁ ma₂ ma₃ ba₁ ba₂
  exact ⟨_, _, _, _, _, _, _, hinit, hreply, hprocess, rfl, hconfirm, rfl, rfl, rfl, hkb, hkb'⟩

end Full

theorem full_handshake_completes_plain : ∃ initMessage init replyMessage reply hi confirmMessage hr,
    let b := plain.bundle fun _ => Arr.zeros
    (InitState.initializeMessage () [1] b none [2, 3] () : Outcome Empty _) = .ok (some (initMessage, init)) ∧
    ReplyState.processInitialize () [1] initMessage b none 5 () (fun _ => [4]) =
      .ok (.incomplete replyMessage reply) ∧
    init.processReply replyMessage 5 () () = .ok hi ∧ hi.messageToSend = some confirmMessage ∧
    reply.processConfirm confirmMessage 5 () = .ok hr ∧
    hi.keys = hr.keys ∧ hi.recvPayload = [4] ∧ hr.recvPayload = [2, 3] := by
  have hb := plain.bundle_built fun _ => Arr.zeros
  have ht := plain.bundle_validAt fun _ => Arr.zeros
  obtain ⟨initMessage, init, replyMessage, reply, hi, confirmMessage, hr, h₁, h₂, h₃, h₄, h₅, h₆, h₇, h₈, _⟩ :=
    full_handshake_completes (plain.correct _) hb hb ht ht 5 () () [1] [2, 3] (fun _ => [4]) () () () () ()
  exact ⟨initMessage, init, replyMessage, reply, hi, confirmMessage, hr, h₁, h₂, h₃, h₄, h₅, h₆, h₇, h₈⟩

section Resume

/-- Both hold the same secret, and each a certificate of the other that is valid when it is used. -/
structure Resumable (a b : SecretBundle C) (ra rb : Resumption C) (secs₁ secs₂ secs₃ : UInt64) : Prop where
  token : ra.token = rb.token
  key : ra.key = rb.key
  initiator : rb.remoteKeyBundle.offlineHash = a.publicBundle.offlineHash
  responder : ra.remoteKeyBundle.offlineHash = b.publicBundle.offlineHash
  initiator_valid : rb.remoteKeyBundle.ValidAt secs₁ ∧ a.publicBundle.ValidAt secs₃
  responder_valid : ra.remoteKeyBundle.ValidAt secs₂ ∧ b.publicBundle.ValidAt secs₂

variable (seed₁ seed₂ : C.Seed) (aad payload : Bytes) (createPayload : Unit → Bytes) (a b : SecretBundle C)
  (ra rb : Resumption C) (secs₁ secs₂ secs₃ : UInt64) (ma₁ ma₂ ma₃ : C.MessageAlloc) (ba₁ ba₂ : C.BundleAlloc)

/-- The checksum of the two bundles as each party computes it over the message `initMessage`. -/
def ChecksumsAgree (initMessage : Bytes) : Prop :=
  let s : SymmetricState C :=
    ((SymmetricState.new aad).mix 9 (initMessage.take Initialize.resumptionTokenEnd)).mix 10 rb.key.bytes
  s.checksum a.publicBundle.bundleHash.bytes ra.remoteKeyBundle.bundleHash.bytes
      Initialize.keyBundleChecksumLen =
    s.checksum rb.remoteKeyBundle.bundleHash.bytes b.publicBundle.bundleHash.bytes
      Initialize.keyBundleChecksumLen

/-- A reply of the given type is sent, and the handshake completes with the confirm message. -/
def CompletesOnConfirm (initMessage : Bytes) (init : InitState C) (resumption : Option (Resumption C))
    (handshakeType : UInt8) : Prop :=
  ∃ replyMessage reply hi confirmMessage hr,
    ReplyState.processInitialize seed₂ aad initMessage b resumption secs₁ ma₂ createPayload =
      .ok (.incomplete replyMessage reply) ∧
    replyMessage.head? = some handshakeType ∧
    init.processReply replyMessage secs₂ ba₁ ma₃ = .ok hi ∧ hi.messageToSend = some confirmMessage ∧
    reply.processConfirm confirmMessage secs₃ ba₂ = .ok hr ∧ hi.keys = hr.keys

def CompletesOnReply (initMessage : Bytes) (init : InitState C) : Prop :=
  ∃ hr replyMessage hi,
    ReplyState.processInitialize seed₂ aad initMessage b (some rb) secs₁ ma₂ createPayload =
      .ok (.complete hr) ∧
    hr.messageToSend = some replyMessage ∧ init.processReply replyMessage secs₂ ba₁ ma₃ = .ok hi ∧
    hi.keys = hr.keys ∧ hi.recvPayload = createPayload () ∧ hr.recvPayload = payload

/-- What a resumption is for: one round trip when both bundles are current, and otherwise, or when
the responder no longer knows the secret, the round trips of a full handshake. -/
def ResumptionCompletes : Prop :=
  ∃ initMessage init,
    (InitState.initializeMessage seed₁ aad a (some ra) payload ma₁ : Outcome Empty _) =
      .ok (some (initMessage, init)) ∧
    (ra.remoteKeyBundle.Same b.publicBundle → rb.remoteKeyBundle.Same a.publicBundle →
      CompletesOnReply seed₂ aad payload createPayload b rb secs₁ secs₂ ma₂ ma₃ ba₁ initMessage init) ∧
    (¬ ChecksumsAgree aad a b ra rb initMessage →
      CompletesOnConfirm seed₂ aad createPayload b secs₁ secs₂ secs₃ ma₂ ma₃ ba₁ ba₂ initMessage init (some rb)
        Reply.handshakeTypeFull) ∧
    (a.publicBundle.flags &&& b.publicBundle.flags &&& KeyBundle.flagReliableStorage = 0 →
      CompletesOnConfirm seed₂ aad createPayload b secs₁ secs₂ secs₃ ma₂ ma₃ ba₁ ba₂ initMessage init none
        Reply.handshakeTypeFallback)

theorem resumption_never_completes (hC : C.Correct) :
    (InitState.initializeMessage seed₁ aad a (some ra) payload ma₁ : Outcome Empty _) = panic .copyLength ∧
    ¬ ResumptionCompletes seed₁ seed₂ aad payload createPayload a b ra rb secs₁ secs₂ secs₃ ma₁ ma₂ ma₃ ba₁
      ba₂ := by
  obtain ⟨m, hm⟩ := hC.mallocMessage ma₁ (Initialize.payloadStart + payload.length + payloadRevStart)
  have hp := InitState.initializeMessage_resumption (ε := Empty) seed₁ aad a ra payload hm
  refine ⟨hp, ?_⟩
  rintro ⟨initMessage, init, hi, _⟩
  rw [hp] at hi
  exact panic_ne_ok _ _ hi

end Resume

theorem resumption_never_completes_plain :
    let b := plain.bundle fun _ => Arr.zeros
    let r := plain.resumption fun _ => Arr.zeros
    ¬ ResumptionCompletes () () [] [1] (fun _ => [2]) b b r r 5 5 5 () () () () () :=
  (resumption_never_completes () () [] [1] (fun _ => [2]) _ _ _ _ 5 5 5 () () () () () (plain.correct _)).2

theorem resumption_panics_plain :
    let C := plain fun _ => Arr.zeros
    let b := plain.bundle fun _ => Arr.zeros
    let r := plain.resumption fun _ => Arr.zeros
    C.Correct ∧ b.Built ∧ Resumable b b r r 5 5 5 ∧
    (InitState.initializeMessage () [] b (some r) [1] () : Outcome Empty _) = panic .copyLength ∧
    ¬ ResumptionCompletes () () [] [1] (fun _ => [2]) b b r r 5 5 5 () () () () () := by
  have ht := plain.bundle_validAt fun _ => Arr.zeros
  obtain ⟨m, hm⟩ := (plain.correct fun _ => Arr.zeros).mallocMessage ()
    (Initialize.payloadStart + [(1 : UInt8)].length + payloadRevStart)
  have hp := InitState.initializeMessage_resumption (ε := Empty) () [] (plain.bundle fun _ => Arr.zeros)
    (plain.resumption fun _ => Arr.zeros) [1] hm
  refine ⟨plain.correct _, plain.bundle_built _, ⟨rfl, rfl, rfl, rfl, ⟨ht, ht⟩, ⟨ht, ht⟩⟩, hp, ?_⟩
  rintro ⟨initMessage, init, hi, _⟩
  rw [hp] at hi
  exact panic_ne_ok _ _ hi

end Pqsnet.Transport
