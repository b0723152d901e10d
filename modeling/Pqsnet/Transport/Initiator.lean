import Pqsnet.Transport.SymmetricState

/-! The initiator: it sends the first message, and completes on the reply. -/

namespace Pqsnet.Transport

open Checked Outcome

structure InitState (C : CryptoAndMem) where
  symmetric : SymmetricState C
  fallback : Option (SymmetricState C)
  decapsulationKey : C.DecapsulationKey
  payload : Bytes
  secretKeyBundle : SecretBundle C
  remoteKeyBundle : Option (AuthenticBundle C)

namespace InitState

variable {C : CryptoAndMem} {ε : Type}

section Initialize

open Initialize

-- `none` stands for the allocation failure that the source reports with `None`.
def initializeMessage (seed : C.Seed) (aad : Bytes) (secretKeyBundle : SecretBundle C)
    (resumption : Option (Resumption C)) (payload : Bytes) (alloc : C.MessageAlloc) :
    Outcome ε (Option (Bytes × InitState C)) :=
  let messageLen :=
    if resumption.isSome then payloadStart + payload.length + payloadRevStart else ephemeralEncKeyEnd
  match C.mallocMessage alloc messageLen with
  | none => .ok none
  | some mem => do
  let (encapsulationKey, decapsulationKey) := C.generate seed
  let initMessage ← writeSlice mem ephemeralEncKeyStart ephemeralEncKeyEnd encapsulationKey.bytes
  let symmetric : SymmetricState C := SymmetricState.new aad
  match resumption with
  | some resumption => do
    let initMessage ← writeSlice initMessage resumptionTokenStart resumptionTokenEnd resumption.token.bytes
    let symmetric := symmetric.mix 9 (← slice initMessage 0 resumptionTokenEnd)
    let fallback := symmetric
    let symmetric := symmetric.mix 10 resumption.key.bytes
    let payloadEnd ← sub initMessage.length payloadRevStart
    let payloadTagEnd ← sub initMessage.length payloadTagRevStart
    let onlineSignStart ← sub initMessage.length onlineSignRevEnd
    let onlineSignTagEnd ← sub initMessage.length onlineSignTagRevEnd
    let checksum := symmetric.checksum secretKeyBundle.publicBundle.bundleHash.bytes
      resumption.remoteKeyBundle.bundleHash.bytes keyBundleChecksumLen
    let initMessage ← writeSlice initMessage keyBundleChecksumStart keyBundleChecksumEnd checksum.bytes
    let initMessage ← writeSlice initMessage payloadStart payloadEnd payload
    let (symmetric, initMessage) ←
      withSlice initMessage keyBundleChecksumStart payloadTagEnd (symmetric.encryptAndMix 11)
    let (symmetric, initMessage) ←
      withSlice initMessage onlineSignStart onlineSignTagEnd (symmetric.sign 12 secretKeyBundle)
    let fallback := fallback.mix 14 (← slice initMessage resumptionTokenEnd initMessage.length)
    .ok (some (initMessage, {
      symmetric := symmetric
      fallback := some fallback
      decapsulationKey := decapsulationKey
      payload := payload
      secretKeyBundle := secretKeyBundle
      remoteKeyBundle := some resumption.remoteKeyBundle }))
  | none =>
    .ok (some (initMessage, {
      symmetric := symmetric.mix 1 initMessage
      fallback := none
      decapsulationKey := decapsulationKey
      payload := payload
      secretKeyBundle := secretKeyBundle
      remoteKeyBundle := none }))

end Initialize

section Confirm

open Confirm

def encodeConfirm (self : InitState C) (symmetric : SymmetricState C)
    (remoteKeyBundle : AuthenticBundle C) (recvPayload : Bytes) (messageAlloc : C.MessageAlloc) :
    Outcome Error (HandshakeComplete C) := do
  let localKeyBundle := self.secretKeyBundle.publicBundle.publicBytes
  let keyBundleEnd := payloadStart + localKeyBundle.length
  let payloadEnd := keyBundleEnd + self.payload.length
  let payloadTagEnd := payloadEnd + Aes256.tagLen
  let onlineSignStart := payloadTagEnd
  let onlineSignEnd := onlineSignStart + onlineSignLen
  let onlineSignTagEnd := onlineSignEnd + Aes256.tagLen
  let mem ← okOr (C.mallocMessage messageAlloc onlineSignTagEnd) .allocFailure
  let confirmMessage ← writeSlice mem payloadStart keyBundleEnd localKeyBundle
  let confirmMessage ← writeSlice confirmMessage keyBundleEnd payloadEnd self.payload
  let (symmetric, confirmMessage) ←
    withSlice confirmMessage payloadStart payloadTagEnd (symmetric.encryptAndMix 6)
  let (symmetric, confirmMessage) ←
    withSlice confirmMessage onlineSignStart onlineSignTagEnd (symmetric.sign 7 self.secretKeyBundle)
  .ok {
    messageToSend := some confirmMessage
    keys := symmetric.split 8
    remoteKeyBundle := remoteKeyBundle
    recvPayload := recvPayload }

end Confirm

section Reply

open Reply

def selectSymmetric (self : InitState C) (handshakeType : UInt8) : Outcome Error (SymmetricState C) :=
  if handshakeType > handshakeTypeMax then err .invalid
  else if handshakeType = handshakeTypeFallback then okOr self.fallback .inauthentic
  else .ok self.symmetric

-- The bundle the reply is signed under, and the index of the payload behind it.
def remoteBundle (self : InitState C) (handshakeType : UInt8) (replyMessage : Bytes) (payloadEnd : ℕ)
    (secsSinceUnixEpoch : UInt64) (bundleAlloc : C.BundleAlloc) :
    Outcome Error (AuthenticBundle C × ℕ) :=
  if handshakeType ≠ handshakeTypeResume then do
    let mixedPayload ← slice replyMessage payloadStart payloadEnd
    let remoteKeyBundle ← mapErr (fun _ => Error.inauthentic)
      (AuthenticBundle.authenticate mixedPayload secsSinceUnixEpoch bundleAlloc)
    let keyBundleEnd := payloadStart + remoteKeyBundle.publicBytes.length
    if handshakeType = handshakeTypeFallback ∧
        (remoteKeyBundle.flags &&& self.secretKeyBundle.publicBundle.flags) &&&
          KeyBundle.flagReliableStorage > 0 then
      err .inauthentic
    else
      match self.remoteKeyBundle with
      | some expectedKeyBundle =>
        if !expectedKeyBundle.offlineEq remoteKeyBundle then err .inauthentic
        else .ok (remoteKeyBundle, keyBundleEnd)
      | none => .ok (remoteKeyBundle, keyBundleEnd)
  else
    match self.remoteKeyBundle with
    | some keyBundle => .ok (keyBundle, payloadStart)
    | none => err .invalid

def processReply (self : InitState C) (replyMessage : Bytes) (secsSinceUnixEpoch : UInt64)
    (bundleAlloc : C.BundleAlloc) (messageAlloc : C.MessageAlloc) :
    Outcome Error (HandshakeComplete C) :=
  if replyMessage.length < payloadStart + payloadRevStart then err .invalid else do
  let handshakeType ← index replyMessage handshakeTypeIdx
  let symmetric ← self.selectSymmetric handshakeType
  let ciphertext ← slice replyMessage ephemeralCiphertextStart ephemeralCiphertextEnd >>=
    tryInto Mlkem1024.ciphertextLen
  let sharedSecret ← okOr (C.decapsulate self.decapsulationKey ciphertext) .inauthentic
  let symmetric := symmetric.mix 2 (← slice replyMessage 0 ephemeralCiphertextEnd)
  let symmetric := symmetric.mix 3 sharedSecret.bytes
  let payloadEnd ← sub replyMessage.length payloadRevStart
  let payloadTagEnd ← sub replyMessage.length payloadTagRevStart
  let onlineSignStart ← sub replyMessage.length onlineSignRevEnd
  let onlineSignTagEnd ← sub replyMessage.length onlineSignTagRevStart
  let (symmetric, replyMessage) ←
    withSlice replyMessage payloadStart payloadTagEnd (symmetric.decryptAndMix 4)
  let (remoteKeyBundle, keyBundleEnd) ←
    self.remoteBundle handshakeType replyMessage payloadEnd secsSinceUnixEpoch bundleAlloc
  let (symmetric, replyMessage) ← mapErr AuthError.toError
    (withSlice replyMessage onlineSignStart onlineSignTagEnd
      (symmetric.verify 5 (some remoteKeyBundle) secsSinceUnixEpoch))
  let recvPayload ← slice replyMessage keyBundleEnd payloadEnd
  if handshakeType = handshakeTypeResume then
    .ok {
      messageToSend := none
      keys := symmetric.split 13
      remoteKeyBundle := remoteKeyBundle
      recvPayload := recvPayload }
  else self.encodeConfirm symmetric remoteKeyBundle recvPayload messageAlloc

end Reply

end InitState

end Pqsnet.Transport
