import Pqsnet.Transport.KeyBundle

/-! The bytes of a key bundle: a fixed head, the extensions and the offline signature. -/

namespace Pqsnet.Transport

open Checked Outcome KeyBundle

structure BundleHead where
  version : UInt8
  offlineKey : Arr Mldsa87.publicKeyLen
  onlineKey : Arr Mldsa87.publicKeyLen
  notBefore : UInt64
  notAfter : UInt64
  counter : UInt32
  flags : UInt32
  extensionsLen : UInt32

namespace BundleHead

def bytes (h : BundleHead) : Bytes :=
  [h.version] ++ (h.offlineKey.bytes ++ (h.onlineKey.bytes ++ (toBe 8 h.notBefore.toNat ++
    (toBe 8 h.notAfter.toNat ++ (toBe 4 h.counter.toNat ++ (toBe 4 h.flags.toNat ++
      toBe 4 h.extensionsLen.toNat))))))

@[simp] lemma bytes_length (h : BundleHead) : h.bytes.length = extensionsStart := by
  simp [bytes]

lemma exists_bytes {b : Bytes} (h : extensionsStart ≤ b.length) :
    ∃ (d : BundleHead) (rest : Bytes), b = d.bytes ++ rest := by
  simp only [extensionsStart, extensionsLenEnd, extensionsLenStart, flagsEnd, flagsStart, counterEnd,
    counterStart, notAfterEnd, notAfterStart, notBeforeEnd, notBeforeStart, onlineKeyEnd, onlineKeyStart,
    offlineKeyEnd, offlineKeyStart, versionEnd, versionIdx, Mldsa87.publicKeyLen] at h
  obtain ⟨v, b, rfl⟩ : ∃ v b', b = v :: b' := List.exists_cons_of_length_pos (by omega)
  simp only [List.length_cons] at h
  obtain ⟨off, b, rfl⟩ := exists_front (n := Mldsa87.publicKeyLen) (b := b) (by simp; omega)
  simp only [List.length_append, Arr.size, Mldsa87.publicKeyLen] at h
  obtain ⟨on, b, rfl⟩ := exists_front (n := Mldsa87.publicKeyLen) (b := b) (by simp; omega)
  simp only [List.length_append, Arr.size, Mldsa87.publicKeyLen] at h
  obtain ⟨nb, b, rfl⟩ := exists_front (n := 8) (b := b) (by omega)
  simp only [List.length_append, Arr.size] at h
  obtain ⟨na, b, rfl⟩ := exists_front (n := 8) (b := b) (by omega)
  simp only [List.length_append, Arr.size] at h
  obtain ⟨ct, b, rfl⟩ := exists_front (n := 4) (b := b) (by omega)
  simp only [List.length_append, Arr.size] at h
  obtain ⟨fl, b, rfl⟩ := exists_front (n := 4) (b := b) (by omega)
  simp only [List.length_append, Arr.size] at h
  obtain ⟨el, b, rfl⟩ := exists_front (n := 4) (b := b) (by omega)
  refine ⟨⟨v, off, on, UInt64.ofNat (fromBe nb.bytes), UInt64.ofNat (fromBe na.bytes),
    UInt32.ofNat (fromBe ct.bytes), UInt32.ofNat (fromBe fl.bytes), UInt32.ofNat (fromBe el.bytes)⟩, b, ?_⟩
  simp only [bytes, toBe_uint64, toBe_uint32, List.append_assoc, List.cons_append, List.nil_append]

lemma bytes_inj {d d' : BundleHead} (h : d.bytes = d'.bytes) : d = d' := by
  obtain ⟨hv, h⟩ := List.append_inj h rfl
  obtain ⟨hoff, h⟩ := List.append_inj h (by simp)
  obtain ⟨hon, h⟩ := List.append_inj h (by simp)
  obtain ⟨hnb, h⟩ := List.append_inj h (by simp)
  obtain ⟨hna, h⟩ := List.append_inj h (by simp)
  obtain ⟨hct, h⟩ := List.append_inj h (by simp)
  obtain ⟨hfl, hel⟩ := List.append_inj h (by simp)
  have h64 : ∀ {v w : UInt64}, toBe 8 v.toNat = toBe 8 w.toNat → v = w := by
    intro v w hvw
    rw [← fromBe_uint64 v, hvw, fromBe_uint64]
  have h32 : ∀ {v w : UInt32}, toBe 4 v.toNat = toBe 4 w.toNat → v = w := by
    intro v w hvw
    rw [← fromBe_uint32 v, hvw, fromBe_uint32]
  cases d
  cases d'
  simp only [mk.injEq]
  exact ⟨List.singleton_inj.mp hv, Arr.ext hoff, Arr.ext hon, h64 hnb, h64 hna, h32 hct, h32 hfl, h32 hel⟩

variable (d : BundleHead) (rest : Bytes) {ε : Type}

lemma index_version : (index (d.bytes ++ rest) versionIdx : Outcome ε UInt8) = .ok d.version :=
  index_ok rfl

lemma slice_offlineKey :
    (slice (d.bytes ++ rest) offlineKeyStart offlineKeyEnd : Outcome ε Bytes) = .ok d.offlineKey.bytes :=
  slice_mid (a := [d.version]) (by simp only [bytes, List.append_assoc]; rfl) (by simp) (by simp)

lemma slice_onlineKey :
    (slice (d.bytes ++ rest) onlineKeyStart onlineKeyEnd : Outcome ε Bytes) = .ok d.onlineKey.bytes :=
  slice_mid (a := [d.version] ++ d.offlineKey.bytes) (by simp only [bytes, List.append_assoc]; rfl)
    (by simp) (by simp)

lemma slice_notBefore : (slice (d.bytes ++ rest) notBeforeStart notBeforeEnd : Outcome ε Bytes) =
    .ok (toBe 8 d.notBefore.toNat) :=
  slice_mid (a := [d.version] ++ (d.offlineKey.bytes ++ d.onlineKey.bytes))
    (by simp only [bytes, List.append_assoc]; rfl) (by simp) (by simp)

lemma slice_notAfter : (slice (d.bytes ++ rest) notAfterStart notAfterEnd : Outcome ε Bytes) =
    .ok (toBe 8 d.notAfter.toNat) :=
  slice_mid (a := [d.version] ++ (d.offlineKey.bytes ++ (d.onlineKey.bytes ++ toBe 8 d.notBefore.toNat)))
    (by simp only [bytes, List.append_assoc]; rfl) (by simp) (by simp)

lemma slice_counter : (slice (d.bytes ++ rest) counterStart counterEnd : Outcome ε Bytes) =
    .ok (toBe 4 d.counter.toNat) :=
  slice_mid (a := [d.version] ++ (d.offlineKey.bytes ++ (d.onlineKey.bytes ++ (toBe 8 d.notBefore.toNat ++
      toBe 8 d.notAfter.toNat))))
    (by simp only [bytes, List.append_assoc]; rfl) (by simp) (by simp)

lemma slice_flags : (slice (d.bytes ++ rest) flagsStart flagsEnd : Outcome ε Bytes) =
    .ok (toBe 4 d.flags.toNat) :=
  slice_mid (a := [d.version] ++ (d.offlineKey.bytes ++ (d.onlineKey.bytes ++ (toBe 8 d.notBefore.toNat ++
      (toBe 8 d.notAfter.toNat ++ toBe 4 d.counter.toNat)))))
    (by simp only [bytes, List.append_assoc]; rfl) (by simp) (by simp)

lemma slice_extensionsLen :
    (slice (d.bytes ++ rest) extensionsLenStart extensionsLenEnd : Outcome ε Bytes) =
      .ok (toBe 4 d.extensionsLen.toNat) :=
  slice_mid (a := [d.version] ++ (d.offlineKey.bytes ++ (d.onlineKey.bytes ++ (toBe 8 d.notBefore.toNat ++
      (toBe 8 d.notAfter.toNat ++ (toBe 4 d.counter.toNat ++ toBe 4 d.flags.toNat))))))
    (by simp only [bytes, List.append_assoc]; rfl) (by simp) (by simp)

end BundleHead

namespace AuthenticBundle

variable {C : CryptoAndMem} {ε : Type}

lemma hashBundle_head (d : BundleHead) (body : Bytes) : (hashBundle C (d.bytes ++ body) : Outcome ε _) =
    .ok (C.xof (Domain.offlineSalt ++ d.offlineKey.bytes) offlineHashLen,
      C.xof (Domain.bundleSalt ++ (d.bytes ++ body)) bundleHashLen) := by
  simp only [hashBundle, d.slice_offlineKey, ok_bind]
  rfl

def ofHead (d : BundleHead) (onlineKey : C.PublicKey) (body : Bytes) : AuthenticBundle C where
  offlineHash := C.xof (Domain.offlineSalt ++ d.offlineKey.bytes) offlineHashLen
  bundleHash := C.xof (Domain.bundleSalt ++ (d.bytes ++ body)) bundleHashLen
  onlineKey := onlineKey
  notBefore := d.notBefore
  notAfter := d.notAfter
  counter := d.counter
  flags := d.flags
  publicBytes := d.bytes ++ body

end AuthenticBundle

namespace SecretBundle

variable {C : CryptoAndMem} {ε : Type}

def head (offlineKey onlineKey : Arr Mldsa87.publicKeyLen) (notBefore notAfter : UInt64)
    (counter flags : UInt32) (extensions : Bytes) : BundleHead :=
  ⟨versionValue, offlineKey, onlineKey, notBefore, notAfter, counter, flags, UInt32.ofNat extensions.length⟩

lemma new_eq (sign : Bytes → Bytes → Arr Mldsa87.signLen) (onlineSecretKey : C.SecretKey)
    (offlineKey : Arr Mldsa87.publicKeyLen) (onlinePublicKey : C.PublicKey)
    (onlineKey : Arr Mldsa87.publicKeyLen) (notBefore notAfter : UInt64) (counter flags : UInt32)
    (ext : Bytes) (alloc : C.BundleAlloc) {d : BundleHead}
    (hd : d = head offlineKey onlineKey notBefore notAfter counter flags ext) :
    (new sign onlineSecretKey offlineKey onlinePublicKey onlineKey notBefore notAfter counter flags ext
        alloc : Outcome ε (SecretBundle C)) =
      unwrap (C.mallocBundle alloc (extensionsStart + ext.length + offlineSignLen)) >>= fun _ =>
        .ok ⟨onlineSecretKey, .ofHead d onlinePublicKey
          (ext ++ (sign Domain.offlineKeyCertification (d.bytes ++ ext)).bytes)⟩ := by
  have hlen : toBe 4 (ext.length % 2 ^ 32) = toBe 4 (UInt32.ofNat ext.length).toNat := by
    rw [UInt32.toNat_ofNat']
  have hdb : d.bytes = [versionValue] ++ offlineKey.bytes ++ onlineKey.bytes ++ toBe 8 notBefore.toNat ++
      toBe 8 notAfter.toNat ++ toBe 4 counter.toNat ++ toBe 4 flags.toNat ++
        toBe 4 (UInt32.ofNat ext.length).toNat := by
    simp only [hd, head, BundleHead.bytes, List.append_assoc]
  simp only [new, hlen]
  cases hm : C.mallocBundle alloc (extensionsStart + ext.length + offlineSignLen) with
  | none => simp only [unwrap_none, panic_bind]
  | some mem =>
    have hl := C.mallocBundle_length _ _ _ hm
    simp only [unwrap_some, ok_bind]
    simp only [extensionsStart, offlineSignLen] at hl
    rw [writeSlice_next [] mem [versionValue] (by simp) (by simp) (by simp) (by simp [hl]), ok_bind,
      writeSlice_next _ _ offlineKey.bytes rfl (by simp) (by simp) (by simp [hl]), ok_bind,
      writeSlice_next _ _ onlineKey.bytes rfl (by simp) (by simp) (by simp [hl]; omega), ok_bind,
      writeSlice_next _ _ (toBe 8 notBefore.toNat) rfl (by simp) (by simp) (by simp [hl]; omega), ok_bind,
      writeSlice_next _ _ (toBe 8 notAfter.toNat) rfl (by simp) (by simp) (by simp [hl]; omega), ok_bind,
      writeSlice_next _ _ (toBe 4 counter.toNat) rfl (by simp) (by simp) (by simp [hl]; omega), ok_bind,
      writeSlice_next _ _ (toBe 4 flags.toNat) rfl (by simp) (by simp) (by simp [hl]; omega), ok_bind,
      writeSlice_next _ _ (toBe 4 (UInt32.ofNat ext.length).toNat) rfl (by simp) (by simp)
        (by simp [hl]; omega), ok_bind, List.nil_append, ← hdb]
    generalize hr : List.drop (toBe 4 (UInt32.ofNat ext.length).toNat).length _ = rest
    have hrl : rest.length = ext.length + 4627 := by
      rw [← hr]
      simp [hl]
      omega
    rw [writeSlice_next d.bytes rest ext rfl (by simp) (by simp) (by omega), ok_bind]
    have hs : (slice (d.bytes ++ ext ++ rest.drop ext.length) 0 (extensionsStart + ext.length) :
        Outcome ε Bytes) = .ok (d.bytes ++ ext) := slice_mid (a := []) rfl rfl (by simp)
    rw [hs, ok_bind]
    generalize sign Domain.offlineKeyCertification (d.bytes ++ ext) = sg
    rw [writeSlice_next (d.bytes ++ ext) (rest.drop ext.length) sg.bytes rfl (by simp) (by simp)
      (by simp [hrl]), ok_bind]
    have hnil : (rest.drop ext.length).drop sg.bytes.length = [] := by simp [hrl]
    rw [hnil, List.append_nil, List.append_assoc, AuthenticBundle.hashBundle_head, ok_bind]
    simp only [AuthenticBundle.ofHead, hd, head]

end SecretBundle

end Pqsnet.Transport
