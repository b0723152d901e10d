import Pqsnet.Transport.SymmetricState

/-! The tail of a handshake message, a payload box followed by a signature box, and what the
symmetric state does on it. -/

namespace Pqsnet.Transport

open Checked Outcome

structure Tail where
  payload : Bytes
  payloadTag : Arr Aes256.tagLen
  onlineSign : Arr Mldsa87.signLen
  onlineSignTag : Arr Aes256.tagLen

namespace Tail

def payloadBox (t : Tail) : Bytes := t.payload ++ t.payloadTag.bytes

def signBox (t : Tail) : Bytes := t.onlineSign.bytes ++ t.onlineSignTag.bytes

def bytes (t : Tail) : Bytes := t.payloadBox ++ t.signBox

@[simp] lemma payloadBox_length (t : Tail) : t.payloadBox.length = t.payload.length + 16 := by
  simp [payloadBox]

@[simp] lemma signBox_length (t : Tail) : t.signBox.length = 4643 := by simp [signBox]

@[simp] lemma bytes_length (t : Tail) : t.bytes.length = t.payload.length + payloadRevStart := by
  simp [bytes]

lemma exists_bytes {b : Bytes} (h : payloadRevStart ≤ b.length) : ∃ t : Tail, b = t.bytes := by
  obtain ⟨b₁, st, rfl⟩ := exists_back (n := Aes256.tagLen) (b := b) (by simp at h ⊢; omega)
  simp only [List.length_append, Arr.size] at h
  obtain ⟨b₂, sg, rfl⟩ := exists_back (n := Mldsa87.signLen) (b := b₁) (by simp at h ⊢; omega)
  simp only [List.length_append, Arr.size] at h
  obtain ⟨p, pt, rfl⟩ := exists_back (n := Aes256.tagLen) (b := b₂) (by simp at h ⊢; omega)
  exact ⟨⟨p, pt, sg, st⟩, by simp [bytes, payloadBox, signBox]⟩

lemma bytes_inj {t u : Tail} (h : t.bytes = u.bytes) : t = u := by
  have hl : t.payload.length = u.payload.length := by
    have := congrArg List.length h
    simpa using this
  obtain ⟨hp, hs⟩ := List.append_inj h (by simp [hl])
  obtain ⟨hp, hpt⟩ := List.append_inj hp hl
  obtain ⟨hs, hst⟩ := List.append_inj hs (by simp)
  cases t
  cases u
  simp_all [Arr.bytes_inj]

-- The message buffer after its payload box, and then also its signature box, was opened in place.
def withPayload (t : Tail) (p : Bytes) : Tail := { t with payload := p }

def opened (t : Tail) (p : Bytes) (sign : Arr Mldsa87.signLen) : Tail :=
  { t with payload := p, onlineSign := sign }

lemma slice_payload {ε : Type} (front : Bytes) (t : Tail) {i e k : ℕ} (hk : k ≤ t.payload.length)
    (hi : i = front.length + k) (he : e = front.length + t.payload.length) :
    (slice (front ++ t.bytes) i e : Outcome ε Bytes) = .ok (t.payload.drop k) :=
  slice_mid (a := front ++ t.payload.take k) (c := t.payloadTag.bytes ++ t.signBox)
    (by
      simp only [bytes, payloadBox, List.append_assoc]
      rw [← List.append_assoc (t.payload.take k), List.take_append_drop])
    (by simp [hi, hk]) (by simp [he]; omega)

lemma slice_take {ε : Type} (front : Bytes) (t : Tail) {i e k : ℕ} (hk : k ≤ t.payload.length)
    (hi : i = front.length) (he : e = front.length + k) :
    (slice (front ++ t.bytes) i e : Outcome ε Bytes) = .ok (t.payload.take k) :=
  slice_mid (c := t.payload.drop k ++ (t.payloadTag.bytes ++ t.signBox))
    (by
      rw [← List.append_assoc (t.payload.take k), List.take_append_drop]
      simp [bytes, payloadBox])
    hi (by simp [he, hk])

end Tail

namespace SymmetricState

variable {C : CryptoAndMem} {ε : Type}

def sealBox (s : SymmetricState C) (stepNo : UInt8) (plaintext : Bytes) : Bytes :=
  let r := C.encryptInPlace s.aesKey (Domain.toHandshakeNonce stepNo) plaintext
  r.1 ++ r.2.bytes

def openBox (s : SymmetricState C) (stepNo : UInt8) (ciphertext : Bytes) (tag : Arr Aes256.tagLen) :
    Bytes × Bool :=
  C.decryptInPlace s.aesKey (Domain.toHandshakeNonce stepNo) ciphertext tag

@[simp] lemma sealBox_length (s : SymmetricState C) (stepNo : UInt8) (p : Bytes) :
    (s.sealBox stepNo p).length = p.length + 16 := by
  simp [sealBox, C.encrypt_length]

@[simp] lemma openBox_length (s : SymmetricState C) (stepNo : UInt8) (c : Bytes) (tag : Arr Aes256.tagLen) :
    (s.openBox stepNo c tag).1.length = c.length :=
  C.decrypt_length _ _ _ _

def openSign (s : SymmetricState C) (stepNo : UInt8) (t : Tail) : Arr Mldsa87.signLen × Bool :=
  let r := s.openBox stepNo t.onlineSign.bytes t.onlineSignTag
  (⟨r.1, by simp [r]⟩, r.2)

lemma encryptAndMix_append (s : SymmetricState C) (stepNo : UInt8) {p pad : Bytes}
    (h : pad.length = Aes256.tagLen) : (s.encryptAndMix stepNo (p ++ pad) : Outcome ε _) =
      .ok (s.mix stepNo (s.sealBox stepNo p), s.sealBox stepNo p) := by
  have hn : (p ++ pad).length - Aes256.tagLen = p.length := by simp [h]
  simp only [encryptAndMix, sub_ok (show Aes256.tagLen ≤ (p ++ pad).length by simp [h]), ok_bind, hn,
    List.take_left', List.drop_left', copyFromSlice, h, Arr.size, ↓reduceIte, sealBox]

lemma decryptAndMix_append (s : SymmetricState C) (stepNo : UInt8) (c : Bytes) (tag : Arr Aes256.tagLen) :
    s.decryptAndMix stepNo (c ++ tag.bytes) =
      if (s.openBox stepNo c tag).2 then
        .ok (s.mix stepNo (c ++ tag.bytes), (s.openBox stepNo c tag).1 ++ tag.bytes)
      else err .inauthentic := by
  have hn : (c ++ tag.bytes).length - Aes256.tagLen = c.length := by simp
  simp only [decryptAndMix, sub_ok (show Aes256.tagLen ≤ (c ++ tag.bytes).length by simp), ok_bind, hn,
    List.take_left', List.drop_left', tryInto_arr, openBox, mix]
  rfl

lemma sign_append (s : SymmetricState C) (stepNo : UInt8) (sk : SecretBundle C) {old pad : Bytes}
    (ho : old.length = Mldsa87.signLen) (h : pad.length = Aes256.tagLen) :
    (s.sign stepNo sk (old ++ pad) : Outcome ε _) =
      .ok (s.mix stepNo (s.sealBox stepNo (sk.sign [stepNo] s.channelBinding.bytes).bytes),
        s.sealBox stepNo (sk.sign [stepNo] s.channelBinding.bytes).bytes) := by
  have hn : (old ++ pad).length - Aes256.tagLen = old.length := by simp [h]
  simp only [sign, sub_ok (show Aes256.tagLen ≤ (old ++ pad).length by simp [h]), ok_bind, hn]
  rw [writeSlice_mid (b := old ++ pad) (s := 0) (a := []) (m := old) (c := pad) rfl rfl (by simp)
    (by simp [ho])]
  simp only [ok_bind, List.nil_append]
  exact encryptAndMix_append s stepNo h

lemma sign_panics (s : SymmetricState C) (stepNo : UInt8) (sk : SecretBundle C) {b : Bytes}
    (h : Aes256.tagLen ≤ b.length) (hb : b.length - Aes256.tagLen ≠ Mldsa87.signLen) :
    (s.sign stepNo sk b : Outcome ε _) = panic .copyLength := by
  have hl : ((b.take (b.length - Aes256.tagLen)).drop 0).length ≠
      (sk.sign [stepNo] s.channelBinding.bytes).bytes.length := by
    simpa using hb
  simp only [sign, sub_ok h, ok_bind, writeSlice,
    slice_ok (Nat.zero_le _) (Nat.sub_le b.length Aes256.tagLen), copyFromSlice, hl, ↓reduceIte, panic_bind]

lemma verify_append (s : SymmetricState C) (stepNo : UInt8) (b : AuthenticBundle C) (secs : UInt64)
    (t : Tail) : s.verify stepNo (some b) secs t.signBox =
      if (s.openSign stepNo t).2 then do
        b.verify [stepNo] s.channelBinding.bytes (s.openSign stepNo t).1 secs
        .ok (s.mix stepNo t.signBox, (s.openSign stepNo t).1.bytes ++ t.onlineSignTag.bytes)
      else err .inauthentic := by
  have hd : s.decryptAndMix stepNo t.signBox = if (s.openSign stepNo t).2 then
        .ok (s.mix stepNo t.signBox, (s.openSign stepNo t).1.bytes ++ t.onlineSignTag.bytes)
      else err .inauthentic := decryptAndMix_append s stepNo _ _
  have hn : t.signBox.length - Aes256.tagLen = 4627 := by simp
  simp only [verify, Option.isSome_some, Bool.or_true, Bool.not_true, Bool.false_eq_true, ↓reduceIte,
    sub_ok (show Aes256.tagLen ≤ t.signBox.length by simp), ok_bind, hn, hd]
  by_cases hs : (s.openSign stepNo t).2
  · simp only [hs, ↓reduceIte, mapErr_ok, ok_bind]
    rw [slice_mid (b := (s.openSign stepNo t).1.bytes ++ t.onlineSignTag.bytes) (s := 0) (a := [])
      (m := (s.openSign stepNo t).1.bytes) rfl rfl (by simp), ok_bind, tryInto_arr, ok_bind]
  · simp only [hs, Bool.false_eq_true, ↓reduceIte, mapErr_err, err_bind]
    rfl

lemma verify_none (s : SymmetricState C) (secs : UInt64) (t : Tail) : s.verify 12 none secs t.signBox =
      if (s.openSign 12 t).2 then
        .ok (s.mix 12 t.signBox, (s.openSign 12 t).1.bytes ++ t.onlineSignTag.bytes)
      else err .inauthentic := by
  have hd : s.decryptAndMix 12 t.signBox = if (s.openSign 12 t).2 then
        .ok (s.mix 12 t.signBox, (s.openSign 12 t).1.bytes ++ t.onlineSignTag.bytes)
      else err .inauthentic := decryptAndMix_append s 12 _ _
  simp only [verify, beq_self_eq_true, Bool.true_or, Bool.not_true, Bool.false_eq_true, ↓reduceIte,
    sub_ok (show Aes256.tagLen ≤ t.signBox.length by simp), ok_bind, hd]
  by_cases hs : (s.openSign 12 t).2
  · simp only [hs, ↓reduceIte, mapErr_ok, ok_bind]
  · simp only [hs, Bool.false_eq_true, ↓reduceIte, mapErr_err, err_bind]
    rfl

variable (s : SymmetricState C) (stepNo : UInt8) (front : Bytes) (t : Tail)

lemma decrypt_tail {e : ℕ} (he : e = front.length + t.payloadBox.length) :
    withSlice (front ++ t.bytes) front.length e (s.decryptAndMix stepNo) =
      if (s.openBox stepNo t.payload t.payloadTag).2 then
        .ok (s.mix stepNo t.payloadBox,
          front ++ (t.withPayload (s.openBox stepNo t.payload t.payloadTag).1).bytes)
      else err .inauthentic := by
  rw [withSlice_mid (b := front ++ t.bytes) (a := front) (m := t.payloadBox) (c := t.signBox) rfl rfl he,
    Tail.payloadBox, decryptAndMix_append]
  split
  · simp [Tail.withPayload, Tail.bytes, Tail.payloadBox, Tail.signBox]
  · rfl

lemma verify_tail (b : AuthenticBundle C) (secs : UInt64) (p : Bytes) {i e : ℕ}
    (hi : i = front.length + (p.length + 16)) (he : e = front.length + (t.withPayload p).bytes.length) :
    withSlice (front ++ (t.withPayload p).bytes) i e (s.verify stepNo (some b) secs) =
      if (s.openSign stepNo t).2 then do
        b.verify [stepNo] s.channelBinding.bytes (s.openSign stepNo t).1 secs
        .ok (s.mix stepNo t.signBox, front ++ (t.opened p (s.openSign stepNo t).1).bytes)
      else err .inauthentic := by
  rw [withSlice_mid (a := front ++ (t.withPayload p).payloadBox) (m := t.signBox) (c := [])
    (by simp [Tail.bytes, Tail.withPayload, Tail.signBox]) (by simp [hi, Tail.withPayload])
    (by simp [he, Tail.withPayload]; omega), verify_append]
  split
  · cases b.verify [stepNo] s.channelBinding.bytes (s.openSign stepNo t).1 secs with
    | ok _ => simp [Tail.withPayload, Tail.opened, Tail.bytes, Tail.payloadBox, Tail.signBox]
    | error e => rfl
  · rfl

lemma verify_none_tail (secs : UInt64) (p : Bytes) {i e : ℕ}
    (hi : i = front.length + (p.length + 16)) (he : e = front.length + (t.withPayload p).bytes.length) :
    withSlice (front ++ (t.withPayload p).bytes) i e (s.verify 12 none secs) =
      if (s.openSign 12 t).2 then
        .ok (s.mix 12 t.signBox, front ++ (t.opened p (s.openSign 12 t).1).bytes)
      else err .inauthentic := by
  rw [withSlice_mid (a := front ++ (t.withPayload p).payloadBox) (m := t.signBox) (c := [])
    (by simp [Tail.bytes, Tail.withPayload, Tail.signBox]) (by simp [hi, Tail.withPayload])
    (by simp [he, Tail.withPayload]; omega), verify_none]
  split
  · simp [Tail.withPayload, Tail.opened, Tail.bytes, Tail.payloadBox, Tail.signBox]
  · rfl

-- Both boxes of a tail, sealed one after the other, and the state behind them.
def sealTail (a b : UInt8) (sk : SecretBundle C) (plaintext : Bytes) : SymmetricState C × Bytes :=
  let box := s.sealBox a plaintext
  let s₁ := s.mix a box
  let sign := s₁.sealBox b (sk.sign [b] s₁.channelBinding.bytes).bytes
  (s₁.mix b sign, box ++ sign)

@[simp] lemma sealTail_length (a b : UInt8) (sk : SecretBundle C) (p : Bytes) :
    (s.sealTail a b sk p).2.length = p.length + payloadRevStart := by
  simp [sealTail]

lemma encrypt_tail (p : Bytes) {pad : Bytes} (rest : Bytes) {e : ℕ} (hp : pad.length = Aes256.tagLen)
    (he : e = front.length + (p.length + 16)) :
    (withSlice (front ++ (p ++ (pad ++ rest))) front.length e (s.encryptAndMix stepNo) : Outcome ε _) =
      .ok (s.mix stepNo (s.sealBox stepNo p), front ++ (s.sealBox stepNo p ++ rest)) := by
  rw [withSlice_mid (a := front) (m := p ++ pad) (c := rest) (by simp) rfl (by simp [he, hp]),
    encryptAndMix_append s stepNo hp, ok_bind]

lemma sign_tail (sk : SecretBundle C) {old pad : Bytes} {i e : ℕ} (ho : old.length = Mldsa87.signLen)
    (hp : pad.length = Aes256.tagLen) (hi : i = front.length) (he : e = front.length + 4643) :
    (withSlice (front ++ (old ++ pad)) i e (s.sign stepNo sk) : Outcome ε _) =
      .ok (s.mix stepNo (s.sealBox stepNo (sk.sign [stepNo] s.channelBinding.bytes).bytes),
        front ++ s.sealBox stepNo (sk.sign [stepNo] s.channelBinding.bytes).bytes) := by
  rw [withSlice_mid (a := front) (m := old ++ pad) (c := []) (by simp) hi (by simp [he, ho, hp]),
    sign_append s stepNo sk ho hp, ok_bind, List.append_nil]

end SymmetricState

lemma exists_pads {b : Bytes} (h : b.length = payloadRevStart) :
    ∃ (p : Arr Aes256.tagLen) (o : Arr Mldsa87.signLen) (q : Arr Aes256.tagLen),
      b = p.bytes ++ (o.bytes ++ q.bytes) := by
  obtain ⟨t, rfl⟩ := Tail.exists_bytes h.ge
  have hp : t.payload = [] := by simpa using h
  exact ⟨t.payloadTag, t.onlineSign, t.onlineSignTag, by
    simp [Tail.bytes, Tail.payloadBox, Tail.signBox, hp]⟩

end Pqsnet.Transport
