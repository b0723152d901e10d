import Pqsnet.Transport.SymmetricState

/-! The responder: it answers the first message, and completes at once on a resumption or else on
the confirm message. -/

namespace Pqsnet.Transport

open Checked Outcome

structure ReplyState (C : CryptoAndMem) where
  symmetric : SymmetricState C
  remoteOfflineHash : Option OfflineHash
  rejectIfRemoteHasReliableStorage : Bool

inductive InitOk (C : CryptoAndMem)
  | complete (h : HandshakeComplete C)
  | incomplete (message : Bytes) (state : ReplyState C)

-- What the decoding of an initialize message leaves for the encoding of the reply.
structure Initialized (C : CryptoAndMem) where
  sharedSecret : Arr Mlkem1024.sharedSecretKeyLen
  ciphertext : Arr Mlkem1024.ciphertextLen
  handshakeType : UInt8
  symmetric : SymmetricState C
  resume : Option (AuthenticBundle C × Bytes)
  remoteOfflineHash : Option OfflineHash

namespace ReplyState

variable {C : CryptoAndMem}

section Initialize

open Initialize

def decodeResumption (symmetric : SymmetricState C) (initMessage : Bytes) (secretKeyBundle : SecretBundle C)
    (resumption : Resumption C) (secsSinceUnixEpoch : UInt64)
    (sharedSecret : Arr Mlkem1024.sharedSecretKeyLen) (ciphertext : Arr Mlkem1024.ciphertextLen) :
    Outcome ReplyError (Initialized C) :=
  let remoteOfflineHash := some resumption.remoteKeyBundle.offlineHash
  let symmetric := symmetric.mix 10 resumption.key.bytes
  if initMessage.length < payloadStart + payloadRevStart then err .invalid else do
  let payloadEnd ← sub initMessage.length payloadRevStart
  let payloadTagEnd ← sub initMessage.length payloadTagRevStart
  let onlineSignStart ← sub initMessage.length onlineSignRevEnd
  let onlineSignTagEnd ← sub initMessage.length onlineSignTagRevStart
  let localChecksum := symmetric.checksum resumption.remoteKeyBundle.bundleHash.bytes
    secretKeyBundle.publicBundle.bundleHash.bytes keyBundleChecksumLen
  let (symmetric, initMessage) ← mapErr Error.toReplyError
    (withSlice initMessage keyBundleChecksumStart payloadTagEnd (symmetric.decryptAndMix 11))
  let remoteChecksum ← slice initMessage keyBundleChecksumStart keyBundleChecksumEnd >>=
    tryInto keyBundleChecksumLen
  -- An incorrect checksum means one party holds an outdated bundle of the other.
  let hasCorrectBundle := decide (localChecksum = remoteChecksum)
  let (symmetric, initMessage) ← mapErr AuthError.toReplyError
    (withSlice initMessage onlineSignStart onlineSignTagEnd
      (symmetric.verify 12 (if hasCorrectBundle then some resumption.remoteKeyBundle else none)
        secsSinceUnixEpoch))
  if hasCorrectBundle then do
    let recvPayload ← slice initMessage payloadStart payloadEnd
    .ok ⟨sharedSecret, ciphertext, Reply.handshakeTypeResume, symmetric,
      some (resumption.remoteKeyBundle, recvPayload), remoteOfflineHash⟩
  else
    .ok ⟨sharedSecret, ciphertext, Reply.handshakeTypeFull, symmetric, none, remoteOfflineHash⟩

def decodeInitialize (seed : C.Seed) (aad initMessage : Bytes) (secretKeyBundle : SecretBundle C)
    (resumption : Option (Resumption C)) (secsSinceUnixEpoch : UInt64) :
    Outcome ReplyError (Initialized C) :=
  if initMessage.length < ephemeralEncKeyEnd then err .invalid else do
  let ephemeralEncKey ← slice initMessage ephemeralEncKeyStart ephemeralEncKeyEnd >>=
    tryInto Mlkem1024.encapsulationKeyLen
  let (sharedSecret, ciphertext) ← okOr (C.encapsulate seed ephemeralEncKey) .inauthentic
  let symmetric : SymmetricState C := SymmetricState.new aad
  if initMessage.length ≥ resumptionTokenEnd then do
    let symmetric := symmetric.mix 9 (← slice initMessage 0 resumptionTokenEnd)
    let resumptionToken ← slice initMessage resumptionTokenStart resumptionTokenEnd >>=
      tryInto resumptionTokenLen
    match resumption with
    | some resumption =>
      if resumption.token ≠ resumptionToken then err .incorrectResumption
      else
        decodeResumption symmetric initMessage secretKeyBundle resumption secsSinceUnixEpoch
          sharedSecret ciphertext
    | none => do
      let symmetric := symmetric.mix 14 (← slice initMessage resumptionTokenEnd initMessage.length)
      .ok ⟨sharedSecret, ciphertext, Reply.handshakeTypeFallback, symmetric, none, none⟩
  else if initMessage.length ≠ ephemeralEncKeyEnd then err .invalid
  else
    match resumption with
    | some resumption =>
      decodeResumption symmetric initMessage secretKeyBundle resumption secsSinceUnixEpoch
        sharedSecret ciphertext
    | none =>
      .ok ⟨sharedSecret, ciphertext, Reply.handshakeTypeFull, symmetric.mix 1 initMessage, none, none⟩

end Initialize

section Reply

open Reply

def writeBundle (handshakeType : UInt8) (publicBytes replyMessage : Bytes) : Outcome ReplyError Bytes :=
  if handshakeType ≠ handshakeTypeResume then
    let keyBundleEnd := payloadStart + publicBytes.length
    writeSlice replyMessage payloadStart keyBundleEnd publicBytes
  else .ok replyMessage

def encodeReply (init : Initialized C) (secretKeyBundle : SecretBundle C) (payload : Bytes)
    (alloc : C.MessageAlloc) : Outcome ReplyError (InitOk C) := do
  let publicBytes := secretKeyBundle.publicBundle.publicBytes
  let messageLen :=
    if init.handshakeType = handshakeTypeResume then payloadStart + payload.length + payloadRevStart
    else payloadStart + publicBytes.length + payload.length + payloadRevStart
  let mem ← okOr (C.mallocMessage alloc messageLen) .allocFailure
  let replyMessage ← writeSlice mem handshakeTypeIdx handshakeTypeEnd [init.handshakeType]
  let replyMessage ←
    writeSlice replyMessage ephemeralCiphertextStart ephemeralCiphertextEnd init.ciphertext.bytes
  let symmetric := init.symmetric.mix 2 (← slice replyMessage 0 ephemeralCiphertextEnd)
  let symmetric := symmetric.mix 3 init.sharedSecret.bytes
  let replyMessage ← writeBundle init.handshakeType publicBytes replyMessage
  let payloadStart' ← sub replyMessage.length payloadRevStart
  let payloadStart' ← sub payloadStart' payload.length
  let payloadEnd ← sub replyMessage.length payloadRevStart
  let payloadTagEnd ← sub replyMessage.length payloadTagRevStart
  let onlineSignStart ← sub replyMessage.length onlineSignRevEnd
  let onlineSignTagEnd ← sub replyMessage.length onlineSignTagRevStart
  let replyMessage ← writeSlice replyMessage payloadStart' payloadEnd payload
  let (symmetric, replyMessage) ←
    withSlice replyMessage payloadStart payloadTagEnd (symmetric.encryptAndMix 4)
  let (symmetric, replyMessage) ←
    withSlice replyMessage onlineSignStart onlineSignTagEnd (symmetric.sign 5 secretKeyBundle)
  match init.resume with
  | some (remoteKeyBundle, recvPayload) =>
    .ok (.complete {
      messageToSend := some replyMessage
      keys := symmetric.split 13
      remoteKeyBundle := remoteKeyBundle
      recvPayload := recvPayload })
  | none =>
    .ok (.incomplete replyMessage {
      symmetric := symmetric
      remoteOfflineHash := init.remoteOfflineHash
      rejectIfRemoteHasReliableStorage := decide (init.handshakeType = handshakeTypeFallback) &&
        decide (secretKeyBundle.publicBundle.flags &&& KeyBundle.flagReliableStorage > 0) })

-- `createPayload` is called between the two halves, and only when the first one succeeds.
def processInitialize (seed : C.Seed) (aad initMessage : Bytes) (secretKeyBundle : SecretBundle C)
    (resumption : Option (Resumption C)) (secsSinceUnixEpoch : UInt64) (alloc : C.MessageAlloc)
    (createPayload : Unit → Bytes) : Outcome ReplyError (InitOk C) := do
  let init ← decodeInitialize seed aad initMessage secretKeyBundle resumption secsSinceUnixEpoch
  encodeReply init secretKeyBundle (createPayload ()) alloc

end Reply

section Confirm

open Confirm

def processConfirm (self : ReplyState C) (confirmMessage : Bytes) (secsSinceUnixEpoch : UInt64)
    (alloc : C.BundleAlloc) : Outcome Error (HandshakeComplete C) :=
  if confirmMessage.length < payloadStart + payloadRevStart then err .invalid else do
  let payloadEnd ← sub confirmMessage.length payloadRevStart
  let payloadTagEnd ← sub confirmMessage.length payloadTagRevStart
  let onlineSignStart ← sub confirmMessage.length onlineSignRevEnd
  let onlineSignTagEnd ← sub confirmMessage.length onlineSignTagRevStart
  let (symmetric, confirmMessage) ←
    withSlice confirmMessage payloadStart payloadTagEnd (self.symmetric.decryptAndMix 6)
  let mixedPayload ← slice confirmMessage payloadStart payloadEnd
  let remoteKeyBundle ← mapErr AuthError.toError
    (AuthenticBundle.authenticate mixedPayload secsSinceUnixEpoch alloc)
  let keyBundleEnd := payloadStart + remoteKeyBundle.publicBytes.length
  if self.remoteOfflineHash.any (fun h => !remoteKeyBundle.offlineEqRaw h) then err .inauthentic
  else if self.rejectIfRemoteHasReliableStorage ∧
      remoteKeyBundle.flags &&& KeyBundle.flagReliableStorage > 0 then err .inauthentic
  else do
  let (symmetric, confirmMessage) ← mapErr AuthError.toError
    (withSlice confirmMessage onlineSignStart onlineSignTagEnd
      (symmetric.verify 7 (some remoteKeyBundle) secsSinceUnixEpoch))
  let recvPayload ← slice confirmMessage keyBundleEnd payloadEnd
  .ok {
    messageToSend := none
    keys := symmetric.split 8
    remoteKeyBundle := remoteKeyBundle
    recvPayload := recvPayload }

end Confirm

end ReplyState

end Pqsnet.Transport
