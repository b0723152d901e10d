import Pqsnet.Transport.BundleFormat

/-! Authentication of a bundle, read off its fields. -/

namespace Pqsnet.Transport

open Checked Outcome KeyBundle

namespace AuthenticBundle

variable {C : CryptoAndMem} {ε : Type}

def authenticateBody (d : BundleHead) (offlineKey : C.PublicKey) (rest : Bytes) (alloc : C.BundleAlloc) :
    Outcome AuthError (AuthenticBundle C) := do
  let offlineSignStart := extensionsStart + d.extensionsLen.toNat
  let offlineSignEnd := offlineSignStart + offlineSignLen
  let signed ← slice (d.bytes ++ rest) 0 offlineSignStart
  let sign ← slice (d.bytes ++ rest) offlineSignStart offlineSignEnd >>= tryInto Mldsa87.signLen
  if !C.verify offlineKey Domain.offlineKeyCertification signed sign then err .inauthentic else do
  let onlineKey ← okOr (C.decode d.onlineKey) .inauthentic
  let bundle ← slice (d.bytes ++ rest) 0 offlineSignEnd
  let (offlineHash, bundleHash) ← hashBundle C bundle
  let mem ← okOr (C.mallocBundle alloc offlineSignEnd) .allocFailure
  let bundleBytes ← copyFromSlice mem bundle
  .ok ⟨offlineHash, bundleHash, onlineKey, d.notBefore, d.notAfter, d.counter, d.flags, bundleBytes⟩

lemma authenticate_head (d : BundleHead) (rest : Bytes) (secs : UInt64) (alloc : C.BundleAlloc) :
    authenticate (d.bytes ++ rest) secs alloc =
      if d.version ≠ versionValue then err .unrecognizedVersion
      else if secs < d.notBefore then err .postdatedKey
      else if secs > d.notAfter then err .expiredKey
      else okOr (C.decode d.offlineKey) .inauthentic >>= fun k => authenticateBody d k rest alloc := by
  have he : fromBe (toBe 4 d.extensionsLen.toNat) = d.extensionsLen.toNat := by
    have hv := d.extensionsLen.toNat_lt
    rw [fromBe_toBe, Nat.mod_eq_of_lt (by omega)]
  simp only [authenticate, authenticateBody, d.index_version, d.slice_notBefore, d.slice_notAfter,
    d.slice_counter, d.slice_flags, d.slice_extensionsLen, d.slice_offlineKey, d.slice_onlineKey, ok_bind,
    fromBe_uint64, fromBe_uint32, he, tryInto_arr]

lemma authenticateBody_append (d : BundleHead) (offlineKey : C.PublicKey) {ext : Bytes}
    (sign : Arr Mldsa87.signLen) (suffix : Bytes) (alloc : C.BundleAlloc)
    (h : ext.length = d.extensionsLen.toNat) :
    authenticateBody d offlineKey (ext ++ (sign.bytes ++ suffix)) alloc =
      if !C.verify offlineKey Domain.offlineKeyCertification (d.bytes ++ ext) sign then err .inauthentic
      else okOr (C.decode d.onlineKey) .inauthentic >>= fun onlineKey =>
        okOr (C.mallocBundle alloc (extensionsStart + ext.length + offlineSignLen)) .allocFailure >>=
          fun _ => .ok (ofHead d onlineKey (ext ++ sign.bytes)) := by
  have hsigned : (slice (d.bytes ++ (ext ++ (sign.bytes ++ suffix))) 0 (extensionsStart + ext.length) :
      Outcome AuthError Bytes) = .ok (d.bytes ++ ext) :=
    slice_mid (a := []) (c := sign.bytes ++ suffix) (by simp) rfl (by simp)
  have hsign : (slice (d.bytes ++ (ext ++ (sign.bytes ++ suffix))) (extensionsStart + ext.length)
      (extensionsStart + ext.length + offlineSignLen) : Outcome AuthError Bytes) = .ok sign.bytes :=
    slice_mid (a := d.bytes ++ ext) (c := suffix) (by simp) (by simp) (by simp)
  have hbundle : (slice (d.bytes ++ (ext ++ (sign.bytes ++ suffix))) 0
      (extensionsStart + ext.length + offlineSignLen) : Outcome AuthError Bytes) =
        .ok (d.bytes ++ (ext ++ sign.bytes)) :=
    slice_mid (a := []) (c := suffix) (by simp) rfl (by simp; omega)
  simp only [authenticateBody, ← h, hsigned, hsign, hbundle, ok_bind, tryInto_arr, hashBundle_head]
  congr 1
  cases C.decode d.onlineKey with
  | none => rfl
  | some onlineKey =>
    cases hm : C.mallocBundle alloc (extensionsStart + ext.length + offlineSignLen) with
    | none => simp only [okOr_some, ok_bind, okOr_none, err_bind]
    | some mem =>
      have hl : mem.length = (d.bytes ++ (ext ++ sign.bytes)).length := by
        rw [C.mallocBundle_length _ _ _ hm]
        simp
        omega
      simp only [okOr_some, ok_bind, copyFromSlice, hl, ↓reduceIte]
      rfl

lemma authenticate_signed {d : BundleHead} {ext mem : Bytes} {sign : Arr Mldsa87.signLen} {k k' : C.PublicKey} {alloc : C.BundleAlloc}
    (hv : d.version = versionValue) (hl : ext.length = d.extensionsLen.toNat) (hk : C.decode d.offlineKey = some k)
    (hs : C.verify k Domain.offlineKeyCertification (d.bytes ++ ext) sign = true) (hk' : C.decode d.onlineKey = some k')
    (hm : C.mallocBundle alloc (extensionsStart + ext.length + offlineSignLen) = some mem) (suffix : Bytes) (secs : UInt64) :
    authenticate (d.bytes ++ (ext ++ sign.bytes) ++ suffix) secs alloc =
      if secs < d.notBefore then err .postdatedKey
      else if secs > d.notAfter then err .expiredKey
      else .ok (ofHead d k' (ext ++ sign.bytes)) := by
  rw [List.append_assoc, List.append_assoc, authenticate_head, if_neg (not_not.mpr hv), hk, okOr_some, ok_bind,
    authenticateBody_append d k sign suffix alloc hl, hs, hk', hm]
  rfl

lemma authenticateBody_truncated (d : BundleHead) (offlineKey : C.PublicKey) {rest : Bytes}
    (alloc : C.BundleAlloc) (h : rest.length < d.extensionsLen.toNat + offlineSignLen) :
    authenticateBody d offlineKey rest alloc = panic .slice := by
  have hs : ¬ (extensionsStart + d.extensionsLen.toNat + offlineSignLen ≤ (d.bytes ++ rest).length) := by
    simp only [List.length_append, BundleHead.bytes_length]
    omega
  simp only [authenticateBody, slice, hs, and_false, ↓reduceIte, panic_bind]
  split <;> rfl

lemma exists_body {d : BundleHead} {rest : Bytes}
    (h : d.extensionsLen.toNat + offlineSignLen ≤ rest.length) :
    ∃ (ext : Bytes) (sign : Arr Mldsa87.signLen) (suffix : Bytes),
      ext.length = d.extensionsLen.toNat ∧ rest = ext ++ (sign.bytes ++ suffix) := by
  obtain ⟨ext, rest, rfl⟩ := exists_front (n := d.extensionsLen.toNat) (b := rest) (by omega)
  simp only [List.length_append, Arr.size] at h
  obtain ⟨sign, suffix, rfl⟩ := exists_front (n := Mldsa87.signLen) (b := rest) (by simp at h ⊢; omega)
  exact ⟨ext.bytes, sign, suffix, ext.size, rfl⟩

lemma authenticate_short {buf : Bytes} (secs : UInt64) (alloc : C.BundleAlloc)
    (h : buf.length < extensionsStart) : authenticate buf secs alloc =
      match buf with
      | [] => panic .index
      | v :: _ => if v ≠ versionValue then err .unrecognizedVersion else panic .slice := by
  cases buf with
  | nil => rfl
  | cons v b =>
    have hv : (index (v :: b) versionIdx : Outcome AuthError UInt8) = .ok v := index_ok rfl
    have hs : ¬ (extensionsLenEnd ≤ (v :: b).length) := by
      exact not_le.mpr h
    have hl : ∀ f : Bytes → Outcome AuthError (AuthenticBundle C),
        (slice (v :: b) extensionsLenStart extensionsLenEnd >>= f) = panic .slice := by
      intro f
      simp only [slice, hs, and_false, ↓reduceIte, panic_bind]
    simp only [authenticate, hv, ok_bind]
    split
    · rfl
    · have hp : ∀ (s e : ℕ) (f : Bytes → Outcome AuthError (AuthenticBundle C)),
          (∀ x, f x = panic .slice) → (slice (v :: b) s e >>= f) = panic .slice := by
        intro s e f hf
        unfold slice
        split
        · exact hf _
        · rfl
      refine hp _ _ _ fun _ => hp _ _ _ fun _ => hp _ _ _ fun _ => hp _ _ _ fun _ => hl _

lemma authenticate_inv {buf : Bytes} {secs : UInt64} {alloc : C.BundleAlloc}
    {b : AuthenticBundle C} (h : authenticate buf secs alloc = .ok b) :
    ∃ (d : BundleHead) (ext : Bytes) (sign : Arr Mldsa87.signLen) (suffix : Bytes)
      (offlineKey onlineKey : C.PublicKey),
      buf = d.bytes ++ (ext ++ (sign.bytes ++ suffix)) ∧ ext.length = d.extensionsLen.toNat ∧
      d.version = versionValue ∧ d.notBefore ≤ secs ∧ secs ≤ d.notAfter ∧
      C.decode d.offlineKey = some offlineKey ∧
      C.verify offlineKey Domain.offlineKeyCertification (d.bytes ++ ext) sign = true ∧
      C.decode d.onlineKey = some onlineKey ∧ b = ofHead d onlineKey (ext ++ sign.bytes) := by
  by_cases hl : extensionsStart ≤ buf.length
  · obtain ⟨d, rest, rfl⟩ := BundleHead.exists_bytes hl
    rw [authenticate_head] at h
    split at h
    · simp at h
    rename_i hv
    split at h
    · simp at h
    rename_i hb
    split at h
    · simp at h
    rename_i ha
    obtain ⟨k, hk, h⟩ := bind_eq_ok.mp h
    by_cases hr : d.extensionsLen.toNat + offlineSignLen ≤ rest.length
    · obtain ⟨ext, sign, suffix, he, rfl⟩ := exists_body hr
      rw [authenticateBody_append d k sign suffix alloc he] at h
      split at h
      · simp at h
      rename_i hs
      obtain ⟨onlineKey, ho, h⟩ := bind_eq_ok.mp h
      obtain ⟨_, _, h⟩ := bind_eq_ok.mp h
      exact ⟨d, ext, sign, suffix, k, onlineKey, rfl, he, not_not.mp hv, UInt64.not_lt.mp hb, UInt64.not_lt.mp ha,
        okOr_eq_ok.mp hk, by simpa using hs, okOr_eq_ok.mp ho, (ok_inj.mp h).symm⟩
    · rw [authenticateBody_truncated d k alloc (by omega)] at h
      simp at h
  · rw [authenticate_short secs alloc (by omega)] at h
    split at h
    · simp at h
    · split at h <;> simp at h

lemma authenticate_front {buf : Bytes} {secs : UInt64} {alloc : C.BundleAlloc}
    {b : AuthenticBundle C} (h : authenticate buf secs alloc = .ok b) :
    ∃ suffix, buf = b.publicBytes ++ suffix := by
  obtain ⟨d, ext, sign, suffix, _, _, rfl, _, _, _, _, _, _, _, rfl⟩ := authenticate_inv h
  exact ⟨suffix, by simp [ofHead]⟩

end AuthenticBundle

end Pqsnet.Transport
