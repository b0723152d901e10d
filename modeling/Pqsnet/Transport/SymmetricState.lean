import Pqsnet.Transport.KeyBundle

/-! The chained key state both parties keep, with the boxes and signatures made under it. -/

namespace Pqsnet.Transport

open Checked Outcome

structure SymmetricState (C : CryptoAndMem) where
  keyBuffer : Arr shake256HandshakeOutputLen

abbrev SymmetricKeys := Arr shake256SplitOutputLen
abbrev ResumptionToken := Arr resumptionTokenLen
abbrev ResumptionKey := Arr resumptionKeyLen

namespace SymmetricState

variable {C : CryptoAndMem} {ε : Type}

def chainingKey (self : SymmetricState C) : Arr Shake256.collisionResistanceNist5Len :=
  self.keyBuffer.range chainingKeyStart chainingKeyEnd (by decide)

def aesKey (self : SymmetricState C) : Arr Aes256.keyLen :=
  self.keyBuffer.range aesKeyStart aesKeyEnd (by decide)

def channelBinding (self : SymmetricState C) : Arr channelBindingLen :=
  self.keyBuffer.range channelBindingStart channelBindingEnd (by decide)

def hash3 (self : SymmetricState C) (stepNo : UInt8) (sharedData : Bytes) : Xof C :=
  ((Xof.new.update self.chainingKey.bytes).update [stepNo]).update sharedData

def mix (self : SymmetricState C) (stepNo : UInt8) (sharedData : Bytes) : SymmetricState C :=
  ⟨(self.hash3 stepNo sharedData).finish shake256HandshakeOutputLen⟩

def salted : SymmetricState C :=
  ⟨⟨Domain.handshakeSalt ++ List.replicate (shake256HandshakeOutputLen - Domain.handshakeSalt.length) 0,
    by simp [Domain.handshakeSalt_length]⟩⟩

def new (aad : Bytes) : SymmetricState C := salted.mix 0 aad

def encryptAndMix (self : SymmetricState C) (stepNo : UInt8) (plaintextAndPad : Bytes) :
    Outcome ε (SymmetricState C × Bytes) := do
  let n ← sub plaintextAndPad.length Aes256.tagLen
  let plaintext := plaintextAndPad.take n
  let pad := plaintextAndPad.drop n
  let (ciphertext, tag) := C.encryptInPlace self.aesKey (Domain.toHandshakeNonce stepNo) plaintext
  let pad ← copyFromSlice pad tag.bytes
  .ok (self.mix stepNo (ciphertext ++ pad), ciphertext ++ pad)

def decryptAndMix (self : SymmetricState C) (stepNo : UInt8) (ciphertextAndTag : Bytes) :
    Outcome Error (SymmetricState C × Bytes) := do
  let hasher := self.hash3 stepNo ciphertextAndTag
  let n ← sub ciphertextAndTag.length Aes256.tagLen
  let ciphertext := ciphertextAndTag.take n
  let tag := ciphertextAndTag.drop n
  let tagArr ← tryInto Aes256.tagLen tag
  let (plaintext, auth) := C.decryptInPlace self.aesKey (Domain.toHandshakeNonce stepNo) ciphertext tagArr
  let self' : SymmetricState C := ⟨hasher.finish shake256HandshakeOutputLen⟩
  if auth then .ok (self', plaintext ++ tag) else err .inauthentic

def checksum (self : SymmetricState C) (input0 input1 : Bytes) (n : ℕ) : Arr n :=
  let hasher : Xof C := ((Xof.new.update self.channelBinding.bytes).update input0).update input1
  hasher.finish n

def sign (self : SymmetricState C) (stepNo : UInt8) (secretKeyBundle : SecretBundle C)
    (plaintextAndPad : Bytes) : Outcome ε (SymmetricState C × Bytes) := do
  let plaintextEnd ← sub plaintextAndPad.length Aes256.tagLen
  let sign := secretKeyBundle.sign [stepNo] self.channelBinding.bytes
  let plaintextAndPad ← writeSlice plaintextAndPad 0 plaintextEnd sign.bytes
  self.encryptAndMix stepNo plaintextAndPad

def verify (self : SymmetricState C) (stepNo : UInt8) (remoteKeyBundle : Option (AuthenticBundle C))
    (secsSinceUnixEpoch : UInt64) (ciphertextAndTag : Bytes) :
    Outcome AuthError (SymmetricState C × Bytes) := do
  if !(stepNo == 12 || remoteKeyBundle.isSome) then panic .assertion else do
  let ciphertextEnd ← sub ciphertextAndTag.length Aes256.tagLen
  let signChannelBinding := self.channelBinding
  let (self', ciphertextAndTag) ← mapErr Error.toAuthError (self.decryptAndMix stepNo ciphertextAndTag)
  match remoteKeyBundle with
  | some remoteKeyBundle => do
    let signature ← slice ciphertextAndTag 0 ciphertextEnd >>= tryInto Mldsa87.signLen
    remoteKeyBundle.verify [stepNo] signChannelBinding.bytes signature secsSinceUnixEpoch
    .ok (self', ciphertextAndTag)
  | none => .ok (self', ciphertextAndTag)

def split (self : SymmetricState C) (stepNo : UInt8) : SymmetricKeys :=
  (self.hash3 stepNo []).finish shake256SplitOutputLen

end SymmetricState

structure Resumption (C : CryptoAndMem) where
  token : ResumptionToken
  key : ResumptionKey
  remoteKeyBundle : AuthenticBundle C

structure HandshakeComplete (C : CryptoAndMem) where
  messageToSend : Option Bytes
  keys : SymmetricKeys
  remoteKeyBundle : AuthenticBundle C
  recvPayload : Bytes

end Pqsnet.Transport
