import Pqsnet.Transport.Protocol

/-! The primitives and allocators a handshake is generic in, and the errors it reports. -/

namespace Pqsnet.Transport

open Checked

/-- Primitives that consume randomness take it as an explicit seed. Slices that a primitive
transforms in place keep their length, and an allocation has the requested length. -/
structure CryptoAndMem where
  SecretKey : Type
  PublicKey : Type
  DecapsulationKey : Type
  Seed : Type
  BundleAlloc : Type
  MessageAlloc : Type
  encryptInPlace : Arr Aes256.keyLen → Arr Aes256.nonceLen → Bytes → Bytes × Arr Aes256.tagLen
  encrypt_length : ∀ k n d, (encryptInPlace k n d).1.length = d.length
  decryptInPlace : Arr Aes256.keyLen → Arr Aes256.nonceLen → Bytes → Arr Aes256.tagLen → Bytes × Bool
  decrypt_length : ∀ k n d t, (decryptInPlace k n d t).1.length = d.length
  xof : Bytes → (n : ℕ) → Arr n
  sign : SecretKey → Bytes → Bytes → Arr Mldsa87.signLen
  decode : Arr Mldsa87.publicKeyLen → Option PublicKey
  verify : PublicKey → Bytes → Bytes → Arr Mldsa87.signLen → Bool
  generate : Seed → Arr Mlkem1024.encapsulationKeyLen × DecapsulationKey
  encapsulate : Seed → Arr Mlkem1024.encapsulationKeyLen →
    Option (Arr Mlkem1024.sharedSecretKeyLen × Arr Mlkem1024.ciphertextLen)
  decapsulate : DecapsulationKey → Arr Mlkem1024.ciphertextLen → Option (Arr Mlkem1024.sharedSecretKeyLen)
  mallocBundle : BundleAlloc → ℕ → Option Bytes
  mallocBundle_length : ∀ a n m, mallocBundle a n = some m → m.length = n
  mallocMessage : MessageAlloc → ℕ → Option Bytes
  mallocMessage_length : ∀ a n m, mallocMessage a n = some m → m.length = n

/-- A hasher is what it has absorbed so far. -/
structure Xof (C : CryptoAndMem) where
  absorbed : Bytes

namespace Xof

variable {C : CryptoAndMem}

def new : Xof C := ⟨[]⟩

def update (h : Xof C) (data : Bytes) : Xof C := ⟨h.absorbed ++ data⟩

def finish (h : Xof C) (n : ℕ) : Arr n := C.xof h.absorbed n

end Xof

inductive Error
  | invalid
  | inauthentic
  | allocFailure
  deriving DecidableEq, Repr

inductive ReplyError
  | invalid
  | inauthentic
  | invalidPayload
  | incorrectResumption
  | allocFailure
  deriving DecidableEq, Repr

inductive AuthError
  | invalid
  | inauthentic
  | expiredKey
  | postdatedKey
  | unrecognizedVersion
  | allocFailure
  deriving DecidableEq, Repr

def Error.toReplyError : Error → ReplyError
  | .invalid => .invalid
  | .inauthentic => .inauthentic
  | .allocFailure => .allocFailure

def Error.toAuthError : Error → AuthError
  | .invalid => .invalid
  | .inauthentic => .inauthentic
  | .allocFailure => .allocFailure

def AuthError.toError : AuthError → Error
  | .invalid => .invalid
  | .inauthentic => .inauthentic
  | .expiredKey => .invalid
  | .postdatedKey => .invalid
  | .unrecognizedVersion => .invalid
  | .allocFailure => .allocFailure

def AuthError.toReplyError (e : AuthError) : ReplyError := e.toError.toReplyError

end Pqsnet.Transport
