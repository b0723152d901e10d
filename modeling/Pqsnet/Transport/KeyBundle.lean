import Pqsnet.Transport.Crypto

/-! Key bundles: building one from two key pairs, and authenticating one received from a peer. -/

namespace Pqsnet.Transport

open Checked Outcome KeyBundle

abbrev OfflineHash := Arr offlineHashLen
abbrev BundleHash := Arr bundleHashLen

structure AuthenticBundle (C : CryptoAndMem) where
  offlineHash : OfflineHash
  bundleHash : BundleHash
  onlineKey : C.PublicKey
  notBefore : UInt64
  notAfter : UInt64
  counter : UInt32
  flags : UInt32
  publicBytes : Bytes

structure SecretBundle (C : CryptoAndMem) where
  onlineSecretKey : C.SecretKey
  publicBundle : AuthenticBundle C

variable {C : CryptoAndMem} {ε : Type}

def hashBundle (C : CryptoAndMem) (buf : Bytes) : Outcome ε (OfflineHash × BundleHash) := do
  let offlineKey ← slice buf offlineKeyStart offlineKeyEnd
  let hasher : Xof C := (Xof.new.update Domain.offlineSalt).update offlineKey
  let offlineHash := hasher.finish offlineHashLen
  let hasher : Xof C := (Xof.new.update Domain.bundleSalt).update buf
  let bundleHash := hasher.finish bundleHashLen
  .ok (offlineHash, bundleHash)

namespace SecretBundle

-- The offline key may be of any type that signs, so it enters as its signing function.
def new (offlineSecretKeySign : Bytes → Bytes → Arr Mldsa87.signLen) (onlineSecretKey : C.SecretKey)
    (offlinePublicKeyBytes : Arr Mldsa87.publicKeyLen) (onlinePublicKey : C.PublicKey)
    (onlinePublicKeyBytes : Arr Mldsa87.publicKeyLen) (notBefore notAfter : UInt64)
    (counter flags : UInt32) (extensions : Bytes) (alloc : C.BundleAlloc) :
    Outcome ε (SecretBundle C) := do
  let offlineSignStart := extensionsStart + extensions.length
  let offlineSignEnd := offlineSignStart + offlineSignLen
  let mem ← unwrap (C.mallocBundle alloc offlineSignEnd)
  let buf ← writeSlice mem versionIdx versionEnd [versionValue]
  let buf ← writeSlice buf offlineKeyStart offlineKeyEnd offlinePublicKeyBytes.bytes
  let buf ← writeSlice buf onlineKeyStart onlineKeyEnd onlinePublicKeyBytes.bytes
  let buf ← writeSlice buf notBeforeStart notBeforeEnd (toBe 8 notBefore.toNat)
  let buf ← writeSlice buf notAfterStart notAfterEnd (toBe 8 notAfter.toNat)
  let buf ← writeSlice buf counterStart counterEnd (toBe 4 counter.toNat)
  let buf ← writeSlice buf flagsStart flagsEnd (toBe 4 flags.toNat)
  -- `as u32` keeps the low 32 bits of the length
  let buf ← writeSlice buf extensionsLenStart extensionsLenEnd (toBe 4 (extensions.length % 2 ^ 32))
  let buf ← writeSlice buf extensionsStart offlineSignStart extensions
  let signed ← slice buf 0 offlineSignStart
  let sign := offlineSecretKeySign Domain.offlineKeyCertification signed
  let buf ← writeSlice buf offlineSignStart offlineSignEnd sign.bytes
  let (offlineHash, bundleHash) ← hashBundle C buf
  .ok {
    onlineSecretKey := onlineSecretKey
    publicBundle := {
      offlineHash := offlineHash
      bundleHash := bundleHash
      onlineKey := onlinePublicKey
      notBefore := notBefore
      notAfter := notAfter
      counter := counter
      flags := flags
      publicBytes := buf } }

def sign (self : SecretBundle C) (ctx data : Bytes) : Arr Mldsa87.signLen :=
  C.sign self.onlineSecretKey ctx data

end SecretBundle

namespace AuthenticBundle

def authenticate (buf : Bytes) (secsSinceUnixEpoch : UInt64) (alloc : C.BundleAlloc) :
    Outcome AuthError (AuthenticBundle C) := do
  let version ← index buf versionIdx
  if version ≠ versionValue then err .unrecognizedVersion else do
  let notBefore := UInt64.ofNat (fromBe (← slice buf notBeforeStart notBeforeEnd))
  let notAfter := UInt64.ofNat (fromBe (← slice buf notAfterStart notAfterEnd))
  let counter := UInt32.ofNat (fromBe (← slice buf counterStart counterEnd))
  let flags := UInt32.ofNat (fromBe (← slice buf flagsStart flagsEnd))
  let extensionsLen := fromBe (← slice buf extensionsLenStart extensionsLenEnd)
  let offlineSignStart := extensionsStart + extensionsLen
  let offlineSignEnd := offlineSignStart + offlineSignLen
  if secsSinceUnixEpoch < notBefore then err .postdatedKey
  else if secsSinceUnixEpoch > notAfter then err .expiredKey
  else do
  let offlineKeyBytes ← slice buf offlineKeyStart offlineKeyEnd >>= tryInto Mldsa87.publicKeyLen
  let offlineKey ← okOr (C.decode offlineKeyBytes) .inauthentic
  let signed ← slice buf 0 offlineSignStart
  let sign ← slice buf offlineSignStart offlineSignEnd >>= tryInto Mldsa87.signLen
  if !C.verify offlineKey Domain.offlineKeyCertification signed sign then err .inauthentic else do
  let onlineKeyBytes ← slice buf onlineKeyStart onlineKeyEnd >>= tryInto Mldsa87.publicKeyLen
  let onlineKey ← okOr (C.decode onlineKeyBytes) .inauthentic
  let bundle ← slice buf 0 offlineSignEnd
  let (offlineHash, bundleHash) ← hashBundle C bundle
  let mem ← okOr (C.mallocBundle alloc offlineSignEnd) .allocFailure
  let bundleBytes ← copyFromSlice mem bundle
  .ok {
    offlineHash := offlineHash
    bundleHash := bundleHash
    onlineKey := onlineKey
    notBefore := notBefore
    notAfter := notAfter
    counter := counter
    flags := flags
    publicBytes := bundleBytes }

def verify (self : AuthenticBundle C) (ctx data : Bytes) (signature : Arr Mldsa87.signLen)
    (secsSinceUnixEpoch : UInt64) : Outcome AuthError Unit :=
  if secsSinceUnixEpoch < self.notBefore then err .postdatedKey
  else if secsSinceUnixEpoch > self.notAfter then err .expiredKey
  else if !C.verify self.onlineKey ctx data signature then err .inauthentic
  else .ok ()

lemma verify_eq_ok {self : AuthenticBundle C} {ctx data : Bytes} {signature : Arr Mldsa87.signLen}
    {secs : UInt64} {u : Unit} : self.verify ctx data signature secs = .ok u ↔
      self.notBefore ≤ secs ∧ secs ≤ self.notAfter ∧ C.verify self.onlineKey ctx data signature = true := by
  unfold verify
  split
  · rename_i h
    simp [UInt64.not_le.mpr h]
  split
  · rename_i h
    simp [UInt64.not_le.mpr h]
  rename_i h₁ h₂
  simp only [UInt64.not_lt.mp h₁, UInt64.not_lt.mp h₂, true_and]
  cases C.verify self.onlineKey ctx data signature <;> simp

lemma returns_verify (self : AuthenticBundle C) (ctx data : Bytes) (signature : Arr Mldsa87.signLen)
    (secs : UInt64) : Returns (self.verify ctx data signature secs) := by
  unfold verify
  split_ifs <;> simp

def offlineEqRaw (self : AuthenticBundle C) (other : OfflineHash) : Bool :=
  decide (self.offlineHash = other)

def offlineEq (self other : AuthenticBundle C) : Bool := self.offlineEqRaw other.offlineHash

def extensions (self : AuthenticBundle C) : Outcome ε Bytes :=
  slice self.publicBytes extensionsStart self.publicBytes.length

end AuthenticBundle

end Pqsnet.Transport
