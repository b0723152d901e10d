import Pqsnet.Checked.Bytes

/-! Sizes of the primitives, layouts of the three handshake messages and of a key bundle, and the
domain separation strings. -/

namespace Pqsnet.Transport

open Checked

namespace Aes256

@[simp] def keyLen : ℕ := 32
@[simp] def tagLen : ℕ := 16
@[simp] def nonceLen : ℕ := 12

end Aes256

namespace Shake256

@[simp] def collisionResistanceNist2Len : ℕ := 32
@[simp] def collisionResistanceNist5Len : ℕ := 64

end Shake256

namespace Mlkem1024

@[simp] def encapsulationKeyLen : ℕ := 1568
@[simp] def ciphertextLen : ℕ := 1568
@[simp] def sharedSecretKeyLen : ℕ := 32

end Mlkem1024

namespace Mldsa87

@[simp] def publicKeyLen : ℕ := 2592
@[simp] def signLen : ℕ := 4627

end Mldsa87

/-! Output of the hash that chains the handshake, and of the final split. -/

@[simp] def chainingKeyStart : ℕ := 0
@[simp] def chainingKeyEnd : ℕ := chainingKeyStart + Shake256.collisionResistanceNist5Len
@[simp] def aesKeyStart : ℕ := chainingKeyEnd
@[simp] def aesKeyEnd : ℕ := aesKeyStart + Aes256.keyLen
@[simp] def channelBindingStart : ℕ := aesKeyEnd
@[simp] def channelBindingLen : ℕ := Shake256.collisionResistanceNist5Len
@[simp] def channelBindingEnd : ℕ := channelBindingStart + channelBindingLen
@[simp] def shake256HandshakeOutputLen : ℕ := channelBindingEnd

@[simp] def resumptionKeyLen : ℕ := Shake256.collisionResistanceNist5Len
@[simp] def resumptionTokenLen : ℕ := Shake256.collisionResistanceNist2Len
@[simp] def initiatorResumptionTokenStart : ℕ := resumptionKeyLen
@[simp] def initiatorResumptionTokenEnd : ℕ := initiatorResumptionTokenStart + resumptionTokenLen
@[simp] def responderResumptionTokenEnd : ℕ := initiatorResumptionTokenEnd + resumptionTokenLen
@[simp] def initiatorKeyEnd : ℕ := responderResumptionTokenEnd + Aes256.keyLen
@[simp] def responderKeyEnd : ℕ := initiatorKeyEnd + Aes256.keyLen
@[simp] def shake256SplitOutputLen : ℕ := responderKeyEnd

/-! The tail shared by all messages: payload tag, online signature, signature tag. -/

@[simp] def onlineSignTagRevStart : ℕ := 0
@[simp] def onlineSignTagRevEnd : ℕ := onlineSignTagRevStart + Aes256.tagLen
@[simp] def onlineSignRevStart : ℕ := onlineSignTagRevEnd
@[simp] def onlineSignLen : ℕ := Mldsa87.signLen
@[simp] def onlineSignRevEnd : ℕ := onlineSignRevStart + onlineSignLen
@[simp] def payloadTagRevStart : ℕ := onlineSignRevEnd
@[simp] def payloadTagRevEnd : ℕ := payloadTagRevStart + Aes256.tagLen
@[simp] def payloadRevStart : ℕ := payloadTagRevEnd

namespace Initialize

@[simp] def ephemeralEncKeyStart : ℕ := 0
@[simp] def ephemeralEncKeyEnd : ℕ := ephemeralEncKeyStart + Mlkem1024.encapsulationKeyLen
@[simp] def resumptionTokenStart : ℕ := ephemeralEncKeyEnd
@[simp] def resumptionTokenEnd : ℕ := resumptionTokenStart + resumptionTokenLen
@[simp] def keyBundleChecksumStart : ℕ := resumptionTokenEnd
@[simp] def keyBundleChecksumLen : ℕ := Shake256.collisionResistanceNist2Len
@[simp] def keyBundleChecksumEnd : ℕ := keyBundleChecksumStart + keyBundleChecksumLen
@[simp] def payloadStart : ℕ := keyBundleChecksumEnd

end Initialize

namespace Reply

@[simp] def handshakeTypeIdx : ℕ := 0
@[simp] def handshakeTypeEnd : ℕ := handshakeTypeIdx + 1
@[simp] def ephemeralCiphertextStart : ℕ := handshakeTypeEnd
@[simp] def ephemeralCiphertextEnd : ℕ := ephemeralCiphertextStart + Mlkem1024.ciphertextLen
@[simp] def payloadStart : ℕ := ephemeralCiphertextEnd

def handshakeTypeFull : UInt8 := 0
def handshakeTypeFallback : UInt8 := 1
def handshakeTypeResume : UInt8 := 2
def handshakeTypeMax : UInt8 := 2

lemma full_ne_resume : handshakeTypeFull ≠ handshakeTypeResume := by decide
lemma fallback_ne_resume : handshakeTypeFallback ≠ handshakeTypeResume := by decide
lemma full_ne_fallback : handshakeTypeFull ≠ handshakeTypeFallback := by decide

end Reply

namespace Confirm

@[simp] def payloadStart : ℕ := 0

end Confirm

namespace KeyBundle

@[simp] def versionIdx : ℕ := 0
@[simp] def versionEnd : ℕ := versionIdx + 1
def versionValue : UInt8 := 0
@[simp] def offlineKeyStart : ℕ := versionEnd
@[simp] def offlineKeyEnd : ℕ := offlineKeyStart + Mldsa87.publicKeyLen
@[simp] def onlineKeyStart : ℕ := offlineKeyEnd
@[simp] def onlineKeyEnd : ℕ := onlineKeyStart + Mldsa87.publicKeyLen
@[simp] def notBeforeStart : ℕ := onlineKeyEnd
@[simp] def notBeforeEnd : ℕ := notBeforeStart + 8
@[simp] def notAfterStart : ℕ := notBeforeEnd
@[simp] def notAfterEnd : ℕ := notAfterStart + 8
@[simp] def counterStart : ℕ := notAfterEnd
@[simp] def counterEnd : ℕ := counterStart + 4
@[simp] def flagsStart : ℕ := counterEnd
@[simp] def flagsEnd : ℕ := flagsStart + 4
@[simp] def extensionsLenStart : ℕ := flagsEnd
@[simp] def extensionsLenEnd : ℕ := extensionsLenStart + 4
@[simp] def extensionsStart : ℕ := extensionsLenEnd
@[simp] def offlineSignLen : ℕ := Mldsa87.signLen

def flagReliableStorage : UInt32 := 1
@[simp] def offlineHashLen : ℕ := Shake256.collisionResistanceNist5Len
@[simp] def bundleHashLen : ℕ := Shake256.collisionResistanceNist5Len

end KeyBundle

namespace Domain

def ascii (s : String) : Bytes := s.toList.map fun c => UInt8.ofNat c.toNat

def offlineKeyCertification : Bytes := ascii "PQSNET_MLDSA87_CERTIFICATION"
def offlineSalt : Bytes := ascii "PQSNET_SHAKE256_OFFLINE_SALT" ++ [0]
def bundleSalt : Bytes := ascii "PQSNET_SHAKE256_BUNDLE_SALT" ++ [0]
def handshakeSalt : Bytes := ascii "PQSNET_TRANSPORT_AES256GCM_SHAKE256_MLKEM1024_MLDSA87"

/-- The fixed field of the handshake nonces, with the step number in the last byte. -/
def toHandshakeNonce (stepNo : UInt8) : Arr Aes256.nonceLen :=
  ⟨ascii "PQSH" ++ [0, 0, 0, 0, 0, 0, 0] ++ [stepNo], rfl⟩

lemma handshakeSalt_length : handshakeSalt.length = 53 := by decide

end Domain

end Pqsnet.Transport
