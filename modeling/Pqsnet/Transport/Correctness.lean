import Pqsnet.Transport.Boxes
import Pqsnet.Transport.BundleAuthentication

/-! What honest parties rely on: correct primitives, allocators that do not fail, and bundles made
from matching key pairs. -/

namespace Pqsnet.Transport

open Checked Outcome KeyBundle

structure CryptoAndMem.Correct (C : CryptoAndMem) : Prop where
  decapsulate_encapsulate : ∀ seed seed', ∃ ss ct, C.encapsulate seed' (C.generate seed).1 = some (ss, ct) ∧
    C.decapsulate (C.generate seed).2 ct = some ss
  decrypt_encrypt : ∀ k n p,
    C.decryptInPlace k n (C.encryptInPlace k n p).1 (C.encryptInPlace k n p).2 = (p, true)
  mallocBundle : ∀ a n, ∃ m, C.mallocBundle a n = some m
  mallocMessage : ∀ a n, ∃ m, C.mallocMessage a n = some m

variable {C : CryptoAndMem}

/-- The encoded key decodes to one that accepts every signature of the signer. -/
def KeyPair (C : CryptoAndMem) (sign : Bytes → Bytes → Arr Mldsa87.signLen)
    (key : Arr Mldsa87.publicKeyLen) : Prop :=
  ∃ k, C.decode key = some k ∧ ∀ ctx data, C.verify k ctx data (sign ctx data) = true

/-- A bundle that `SecretBundle.new` returned for two key pairs. -/
inductive SecretBundle.Built : SecretBundle C → Prop
  | new {offlineSign : Bytes → Bytes → Arr Mldsa87.signLen} {onlineSecretKey : C.SecretKey}
    {offlineKey : Arr Mldsa87.publicKeyLen} {onlinePublicKey : C.PublicKey}
    {onlineKey : Arr Mldsa87.publicKeyLen} {notBefore notAfter : UInt64} {counter flags : UInt32}
    {extensions : Bytes} {alloc : C.BundleAlloc} {b : SecretBundle C}
    (hoffline : KeyPair C offlineSign offlineKey) (honline : KeyPair C (C.sign onlineSecretKey) onlineKey)
    (hext : extensions.length < 2 ^ 32)
    (h : (SecretBundle.new offlineSign onlineSecretKey offlineKey onlinePublicKey onlineKey notBefore notAfter
      counter flags extensions alloc : Outcome Empty _) = .ok b) : Built b

namespace AuthenticBundle

def ValidAt (b : AuthenticBundle C) (secs : UInt64) : Prop := b.notBefore ≤ secs ∧ secs ≤ b.notAfter

/-- The same certificate; the decoded online key is local to each holder. -/
structure Same (b c : AuthenticBundle C) : Prop where
  publicBytes : b.publicBytes = c.publicBytes
  offlineHash : b.offlineHash = c.offlineHash
  bundleHash : b.bundleHash = c.bundleHash
  flags : b.flags = c.flags

lemma authenticate_built (hC : C.Correct) {sk : SecretBundle C} (h : sk.Built) {secs : UInt64}
    (ht : sk.publicBundle.ValidAt secs) (suffix : Bytes) (alloc : C.BundleAlloc) :
    ∃ b : AuthenticBundle C, authenticate (sk.publicBundle.publicBytes ++ suffix) secs alloc = .ok b ∧
      b.Same sk.publicBundle ∧ b.ValidAt secs ∧
      ∀ ctx data, C.verify b.onlineKey ctx data (sk.sign ctx data) = true := by
  obtain @⟨sign, sk, offlineKey, onlinePublicKey, onlineKey, notBefore, notAfter, counter, flags, ext, alloc', _,
    ⟨k, hk, hkv⟩, ⟨k', hk', hkv'⟩, hext, h⟩ := h
  rw [SecretBundle.new_eq sign sk offlineKey onlinePublicKey onlineKey notBefore notAfter counter flags ext
    alloc' rfl] at h
  obtain ⟨_, _, h⟩ := bind_eq_ok.mp h
  obtain rfl := ok_inj.mp h
  obtain ⟨m, hm⟩ := hC.mallocBundle alloc (extensionsStart + ext.length + offlineSignLen)
  generalize hd : SecretBundle.head offlineKey onlineKey notBefore notAfter counter flags ext = d at ht ⊢
  have hl : ext.length = d.extensionsLen.toNat := by
    rw [← hd, SecretBundle.head, UInt32.toNat_ofNat', Nat.mod_eq_of_lt hext]
  have hv : d.version = versionValue := by rw [← hd]; rfl
  have hoff : C.decode d.offlineKey = some k := by rw [← hd]; exact hk
  have hon : C.decode d.onlineKey = some k' := by rw [← hd]; exact hk'
  refine ⟨ofHead d k' (ext ++ (sign Domain.offlineKeyCertification (d.bytes ++ ext)).bytes), ?_,
    ⟨rfl, rfl, rfl, rfl⟩, ht, hkv'⟩
  have hb : ¬ secs < d.notBefore := UInt64.not_lt.mpr ht.1
  have hb' : ¬ secs > d.notAfter := UInt64.not_lt.mpr ht.2
  rw [ofHead, authenticate_signed hv hl hoff (hkv _ _) hon hm, if_neg hb, if_neg hb']

end AuthenticBundle

namespace SymmetricState

lemma exists_sealed (hC : C.Correct) (s : SymmetricState C) (a b : UInt8) (sk : SecretBundle C) (p : Bytes) :
    ∃ t : Tail, (s.sealTail a b sk p).2 = t.bytes ∧ s.openBox a t.payload t.payloadTag = (p, true) ∧
      (s.mix a t.payloadBox).openSign b t =
        (sk.sign [b] (s.mix a t.payloadBox).channelBinding.bytes, true) ∧
      (s.sealTail a b sk p).1 = (s.mix a t.payloadBox).mix b t.signBox := by
  let box := C.encryptInPlace s.aesKey (Domain.toHandshakeNonce a) p
  let s₁ := s.mix a (s.sealBox a p)
  let sg := sk.sign [b] s₁.channelBinding.bytes
  let sign := C.encryptInPlace s₁.aesKey (Domain.toHandshakeNonce b) sg.bytes
  have hs : sign.1.length = Mldsa87.signLen := by rw [C.encrypt_length, sg.size]
  have ho : s₁.openSign b ⟨box.1, box.2, ⟨sign.1, hs⟩, sign.2⟩ = (sg, true) := by
    have hd := hC.decrypt_encrypt s₁.aesKey (Domain.toHandshakeNonce b) sg.bytes
    have hd₁ := congrArg Prod.fst hd
    have hd₂ := congrArg Prod.snd hd
    exact Prod.ext (Arr.ext hd₁) hd₂
  exact ⟨⟨box.1, box.2, ⟨sign.1, hs⟩, sign.2⟩, rfl,
    hC.decrypt_encrypt s.aesKey (Domain.toHandshakeNonce a) p, ho, rfl⟩

end SymmetricState

/-! Primitives that hide nothing but are correct, so that the assumptions are seen to be satisfiable. -/

def plain (xof : Bytes → (n : ℕ) → Arr n) : CryptoAndMem where
  SecretKey := Unit
  PublicKey := Unit
  DecapsulationKey := Unit
  Seed := Unit
  BundleAlloc := Unit
  MessageAlloc := Unit
  encryptInPlace _ _ p := (p, Arr.zeros _)
  encrypt_length _ _ _ := rfl
  decryptInPlace _ _ c _ := (c, true)
  decrypt_length _ _ _ _ := rfl
  xof := xof
  sign _ _ _ := Arr.zeros _
  decode _ := some ()
  verify _ _ _ _ := true
  generate _ := (Arr.zeros _, ())
  encapsulate _ _ := some (Arr.zeros _, Arr.zeros _)
  decapsulate _ _ := some (Arr.zeros _)
  mallocBundle _ n := some (List.replicate n 0)
  mallocBundle_length := by simp
  mallocMessage _ n := some (List.replicate n 0)
  mallocMessage_length := by simp

namespace plain

variable (xof : Bytes → (n : ℕ) → Arr n)

lemma correct : (plain xof).Correct where
  decapsulate_encapsulate _ _ := ⟨_, _, rfl, rfl⟩
  decrypt_encrypt _ _ _ := rfl
  mallocBundle _ _ := ⟨_, rfl⟩
  mallocMessage _ _ := ⟨_, rfl⟩

def head : BundleHead := SecretBundle.head (Arr.zeros _) (Arr.zeros _) 0 10 0 0 []

def bundle : SecretBundle (plain xof) := ⟨(), .ofHead head () (Arr.zeros Mldsa87.signLen).bytes⟩

def resumption : Resumption (plain xof) := ⟨Arr.zeros _, Arr.zeros _, (bundle xof).publicBundle⟩

lemma bundle_built : (bundle xof).Built := by
  have h : (SecretBundle.new (fun _ _ => Arr.zeros _) () (Arr.zeros _) () (Arr.zeros _) 0 10 0 0 [] () :
      Outcome Empty (SecretBundle (plain xof))) = .ok (bundle xof) :=
    SecretBundle.new_eq (C := plain xof) _ _ _ _ _ 0 10 0 0 [] () rfl
  exact .new ⟨(), rfl, fun _ _ => rfl⟩ ⟨(), rfl, fun _ _ => rfl⟩ (by decide) h

lemma bundle_flags : (bundle xof).publicBundle.flags = 0 := rfl

lemma bundle_validAt : (bundle xof).publicBundle.ValidAt 5 :=
  ⟨show (0 : UInt64) ≤ 5 by decide, show (5 : UInt64) ≤ 10 by decide⟩

end plain

end Pqsnet.Transport
