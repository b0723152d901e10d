import Pqsnet.Transport.Initiator
import Pqsnet.Transport.Responder
import Pqsnet.Transport.Boxes

/-! The initialize message at the level of its fields: a lone encapsulation key, a key with a token
the responder does not know, or a key with a token and a tail under the resumption key. -/

namespace Pqsnet.Transport

open Checked Outcome

variable {C : CryptoAndMem}

namespace ReplyState

def resumptionTail (s : SymmetricState C) (sk : SecretBundle C) (r : Resumption C) (secs : UInt64)
    (ss : Arr Mlkem1024.sharedSecretKeyLen) (ct : Arr Mlkem1024.ciphertextLen) (t : Tail) :
    Outcome ReplyError (Initialized C) :=
  let s := s.mix 10 r.key.bytes
  let checksum := s.checksum r.remoteKeyBundle.bundleHash.bytes sk.publicBundle.bundleHash.bytes
    Initialize.keyBundleChecksumLen
  let box := s.openBox 11 t.payload t.payloadTag
  let s := s.mix 11 t.payloadBox
  let sign := s.openSign 12 t
  if box.2 && sign.2 then
    if checksum.bytes = box.1.take Initialize.keyBundleChecksumLen then do
      mapErr AuthError.toReplyError (r.remoteKeyBundle.verify [12] s.channelBinding.bytes sign.1 secs)
      .ok ⟨ss, ct, Reply.handshakeTypeResume, s.mix 12 t.signBox,
        some (r.remoteKeyBundle, box.1.drop Initialize.keyBundleChecksumLen), some r.remoteKeyBundle.offlineHash⟩
    else
      .ok ⟨ss, ct, Reply.handshakeTypeFull, s.mix 12 t.signBox, none, some r.remoteKeyBundle.offlineHash⟩
  else err .inauthentic

lemma decodeResumption_tail (s : SymmetricState C) {front : Bytes} (sk : SecretBundle C) (r : Resumption C)
    (secs : UInt64) (ss : Arr Mlkem1024.sharedSecretKeyLen) (ct : Arr Mlkem1024.ciphertextLen) (t : Tail)
    (hf : front.length = Initialize.resumptionTokenEnd)
    (ht : Initialize.keyBundleChecksumLen ≤ t.payload.length) :
    decodeResumption s (front ++ t.bytes) sk r secs ss ct = resumptionTail s sk r secs ss ct t := by
  generalize hm : front ++ t.bytes = m
  have hml : m.length = Initialize.resumptionTokenEnd + (t.payload.length + payloadRevStart) := by
    rw [← hm, List.length_append, hf, Tail.bytes_length]
  have hl : ¬ (m.length < Initialize.payloadStart + payloadRevStart) := by
    simp only [Initialize.payloadStart, Initialize.keyBundleChecksumEnd, Initialize.keyBundleChecksumStart]
    omega
  simp only [decodeResumption, resumptionTail]
  rw [if_neg hl]
  generalize s.mix 10 r.key.bytes = s
  generalize s.checksum _ _ _ = checksum
  have hd := s.decrypt_tail 11 front t (e := m.length - payloadTagRevStart) (by simp [hml, hf]; omega)
  rw [hm, hf] at hd
  simp only [sub_ok (show payloadRevStart ≤ m.length by omega),
    sub_ok (show payloadTagRevStart ≤ m.length by simp only [payloadRevStart, payloadTagRevEnd] at hml; omega),
    sub_ok (show onlineSignRevEnd ≤ m.length by
      simp only [payloadRevStart, payloadTagRevEnd, payloadTagRevStart] at hml; omega),
    sub_ok (show onlineSignTagRevStart ≤ m.length by simp), ok_bind, Initialize.keyBundleChecksumStart, hd]
  by_cases ho : (s.openBox 11 t.payload t.payloadTag).2
  · have hpl := s.openBox_length 11 t.payload t.payloadTag
    generalize (s.openBox 11 t.payload t.payloadTag).1 = p at hpl
    obtain ⟨ck, q, rfl⟩ := exists_front (n := Initialize.keyBundleChecksumLen) (b := p) (hpl ▸ ht)
    have hck : (ck.bytes ++ q).take Initialize.keyBundleChecksumLen = ck.bytes := List.take_left' ck.size
    have hq : (ck.bytes ++ q).drop Initialize.keyBundleChecksumLen = q := List.drop_left' ck.size
    have hc : slice (front ++ (t.withPayload (ck.bytes ++ q)).bytes) Initialize.resumptionTokenEnd
        Initialize.keyBundleChecksumEnd = (.ok ck.bytes : Outcome ReplyError Bytes) := by
      rw [Tail.slice_take front (t.withPayload (ck.bytes ++ q)) (k := Initialize.keyBundleChecksumLen)
        (by simp [Tail.withPayload]) hf.symm (by rw [hf]; rfl)]
      exact congrArg _ hck
    have hi : m.length - onlineSignRevEnd = front.length + ((ck.bytes ++ q).length + 16) := by
      simp [hml, hf, hpl, -List.length_append]
      omega
    have he : m.length - onlineSignTagRevStart =
        front.length + (t.withPayload (ck.bytes ++ q)).bytes.length := by
      rw [Tail.bytes_length, hml, hf]
      simp only [Tail.withPayload, hpl, onlineSignTagRevStart, Nat.sub_zero]
    simp only [ho, ↓reduceIte, mapErr_ok, ok_bind, hc, Bool.true_and, hck, hq,
      tryInto_arr, decide_eq_true_eq, Arr.bytes_inj]
    generalize s.mix 11 t.payloadBox = s
    by_cases hcs : checksum = ck
    · simp only [hcs, ↓reduceIte, s.verify_tail 12 front t r.remoteKeyBundle secs _ hi he]
      by_cases hs : (s.openSign 12 t).2
      · have hr := Tail.slice_payload (ε := ReplyError) front
          (t.opened (ck.bytes ++ q) (s.openSign 12 t).1) (i := Initialize.payloadStart)
          (k := Initialize.keyBundleChecksumLen) (e := m.length - payloadRevStart)
          (by simp [Tail.opened]) (by rw [hf]; rfl) 
          (by simp [Tail.opened, hml, hf, hpl, -List.length_append]; omega)
        simp only [hs, ↓reduceIte, mapErr_bind, mapErr_ok]
        cases r.remoteKeyBundle.verify [12] s.channelBinding.bytes (s.openSign 12 t).1 secs with
        | error e => simp only [mapErr_error, error_bind]
        | ok _ =>
          simp only [mapErr_ok, ok_bind, hr]
          rw [show (t.opened (ck.bytes ++ q) (s.openSign 12 t).1).payload.drop _ = q from hq]
      · simp only [hs, Bool.false_eq_true, ↓reduceIte, mapErr_err, err_bind]
        rfl
    · simp only [hcs, ↓reduceIte, s.verify_none_tail front t secs _ hi he]
      by_cases hs : (s.openSign 12 t).2
      · simp only [hs, ↓reduceIte, mapErr_ok, ok_bind]
      · simp only [hs, Bool.false_eq_true, ↓reduceIte, mapErr_err, err_bind]
        rfl
  · simp only [ho, Bool.false_eq_true, ↓reduceIte, Bool.false_and, mapErr_err, err_bind]
    rfl

lemma decodeResumption_short (s : SymmetricState C) {m : Bytes} (sk : SecretBundle C) (r : Resumption C)
    (secs : UInt64) (ss : Arr Mlkem1024.sharedSecretKeyLen) (ct : Arr Mlkem1024.ciphertextLen)
    (h : m.length < Initialize.payloadStart + payloadRevStart) :
    decodeResumption s m sk r secs ss ct = err .invalid := by
  simp only [decodeResumption, h, ↓reduceIte]

section Decode

variable (seed : C.Seed) (aad : Bytes) (sk : SecretBundle C) (secs : UInt64)
  (ek : Arr Mlkem1024.encapsulationKeyLen) (token : ResumptionToken) (rest : Bytes)

private lemma slice_key : (slice (ek.bytes ++ rest) Initialize.ephemeralEncKeyStart
    Initialize.ephemeralEncKeyEnd >>= tryInto Mlkem1024.encapsulationKeyLen : Outcome ReplyError _) = .ok ek := by
  have hs : slice (ek.bytes ++ rest) Initialize.ephemeralEncKeyStart Initialize.ephemeralEncKeyEnd =
      (.ok ek.bytes : Outcome ReplyError Bytes) := slice_mid (a := []) rfl rfl (by simp)
  rw [hs, ok_bind, tryInto_arr]

lemma decodeInitialize_full : decodeInitialize seed aad ek.bytes sk none secs =
    okOr (C.encapsulate seed ek) .inauthentic >>= fun r =>
      .ok ⟨r.1, r.2, Reply.handshakeTypeFull, (SymmetricState.new aad).mix 1 ek.bytes, none, none⟩ := by
  have hk := slice_key ek []
  rw [List.append_nil] at hk
  rw [decodeInitialize, if_neg (by simp), hk, ok_bind]
  cases C.encapsulate seed ek with
  | none => simp only [okOr_none, err_bind]
  | some r =>
    simp only [okOr_some, ok_bind]
    rw [if_neg (by simp), if_neg (by simp)]

lemma decodeInitialize_token (resumption : Option (Resumption C)) :
    decodeInitialize seed aad (ek.bytes ++ (token.bytes ++ rest)) sk resumption secs =
      okOr (C.encapsulate seed ek) .inauthentic >>= fun e =>
        let s : SymmetricState C := (SymmetricState.new aad).mix 9 (ek.bytes ++ token.bytes)
        match resumption with
        | some r =>
          if r.token ≠ token then err .incorrectResumption
          else decodeResumption s (ek.bytes ++ (token.bytes ++ rest)) sk r secs e.1 e.2
        | none => .ok ⟨e.1, e.2, Reply.handshakeTypeFallback, s.mix 14 rest, none, none⟩ := by
  have h₁ : slice (ek.bytes ++ (token.bytes ++ rest)) 0 Initialize.resumptionTokenEnd =
      (.ok (ek.bytes ++ token.bytes) : Outcome ReplyError Bytes) :=
    slice_mid (a := []) (c := rest) (by simp) rfl (by simp)
  have h₂ : (slice (ek.bytes ++ (token.bytes ++ rest)) Initialize.resumptionTokenStart
      Initialize.resumptionTokenEnd >>= tryInto resumptionTokenLen : Outcome ReplyError _) = .ok token := by
    rw [slice_mid (a := ek.bytes) (m := token.bytes) (c := rest) rfl (by simp) (by simp), ok_bind,
      tryInto_arr]
  have h₃ : slice (ek.bytes ++ (token.bytes ++ rest)) Initialize.resumptionTokenEnd
      (ek.bytes ++ (token.bytes ++ rest)).length = (.ok rest : Outcome ReplyError Bytes) :=
    slice_mid (a := ek.bytes ++ token.bytes) (c := []) (by simp) (by simp) (by simp; omega)
  rw [decodeInitialize, if_neg (by simp), slice_key, ok_bind]
  cases C.encapsulate seed ek with
  | none => simp only [okOr_none, err_bind]
  | some r =>
    simp only [okOr_some, ok_bind]
    rw [if_pos (by simp; omega), h₁, ok_bind, h₂, ok_bind]
    cases resumption with
    | none => rw [h₃, ok_bind]
    | some r => rfl

lemma decodeInitialize_other (m : Bytes) (resumption : Option (Resumption C))
    (h : m.length < Initialize.resumptionTokenEnd) (hm : m.length ≠ Initialize.ephemeralEncKeyEnd ∨ resumption.isSome) :
    ∃ e, decodeInitialize seed aad m sk resumption secs = err e := by
  by_cases hl : m.length < Initialize.ephemeralEncKeyEnd
  · exact ⟨.invalid, if_pos hl⟩
  · obtain ⟨ek, rest, rfl⟩ := exists_front (n := Mlkem1024.encapsulationKeyLen) (not_lt.mp hl)
    rw [decodeInitialize, if_neg hl, slice_key, ok_bind]
    cases C.encapsulate seed ek with
    | none => exact ⟨.inauthentic, by simp only [okOr_none, err_bind]⟩
    | some r =>
      refine ⟨.invalid, ?_⟩
      simp only [okOr_some, ok_bind]
      rw [if_neg (by simpa using h)]
      split
      · rfl
      · rename_i he
        cases resumption with
        | none => exact absurd hm (by simpa using he)
        | some r => exact decodeResumption_short _ _ _ _ _ _ (by rw [not_not.mp he]; decide)

variable {seed aad sk secs}

lemma initialize_cases (m : Bytes) :
    (∃ ek : Arr Mlkem1024.encapsulationKeyLen, m = ek.bytes) ∨
    (∃ (ek : Arr Mlkem1024.encapsulationKeyLen) (token : ResumptionToken) (rest : Bytes),
      m = ek.bytes ++ (token.bytes ++ rest)) ∨
    (m.length < Initialize.resumptionTokenEnd ∧ m.length ≠ Initialize.ephemeralEncKeyEnd) := by
  by_cases ht : m.length < Initialize.resumptionTokenEnd
  · by_cases hk : m.length = Initialize.ephemeralEncKeyEnd
    · exact .inl ⟨⟨m, hk⟩, rfl⟩
    · exact .inr (.inr ⟨ht, hk⟩)
  · obtain ⟨ek, m, rfl⟩ := exists_front (n := Mlkem1024.encapsulationKeyLen) (b := m)
      (by simp at ht ⊢; omega)
    simp only [List.length_append, Arr.size] at ht
    obtain ⟨token, rest, rfl⟩ := exists_front (n := resumptionTokenLen) (b := m) (by simp at ht ⊢; omega)
    exact .inr (.inl ⟨ek, token, rest, rfl⟩)

lemma exists_resumptionTail {rest : Bytes} (h : ¬ (ek.bytes ++ (token.bytes ++ rest)).length <
    Initialize.payloadStart + payloadRevStart) :
    ∃ t : Tail, rest = t.bytes ∧ Initialize.keyBundleChecksumLen ≤ t.payload.length := by
  obtain ⟨t, rfl⟩ := Tail.exists_bytes (b := rest) (by simp at h ⊢; omega)
  exact ⟨t, rfl, by simp at h ⊢; omega⟩

/-- What a responder accepted: a full initialize message, one with a token it did not look up, or
one with the token and the tail of a resumption it holds. -/
inductive Accepted (seed : C.Seed) (aad : Bytes) (sk : SecretBundle C) (secs : UInt64) :
    Option (Resumption C) → Bytes → Initialized C → Prop
  | full (ek : Arr Mlkem1024.encapsulationKeyLen) (e) (he : C.encapsulate seed ek = some e) :
    Accepted seed aad sk secs none ek.bytes
      ⟨e.1, e.2, Reply.handshakeTypeFull, (SymmetricState.new aad).mix 1 ek.bytes, none, none⟩
  | fallback (ek : Arr Mlkem1024.encapsulationKeyLen) (token : ResumptionToken) (rest : Bytes) (e)
    (he : C.encapsulate seed ek = some e) :
    Accepted seed aad sk secs none (ek.bytes ++ (token.bytes ++ rest))
      ⟨e.1, e.2, Reply.handshakeTypeFallback,
        ((SymmetricState.new aad).mix 9 (ek.bytes ++ token.bytes)).mix 14 rest, none, none⟩
  | resumption (ek : Arr Mlkem1024.encapsulationKeyLen) (r : Resumption C) (t : Tail) (e) (init)
    (he : C.encapsulate seed ek = some e) (ht : Initialize.keyBundleChecksumLen ≤ t.payload.length)
    (h : resumptionTail ((SymmetricState.new aad).mix 9 (ek.bytes ++ r.token.bytes)) sk r secs e.1 e.2 t =
      .ok init) :
    Accepted seed aad sk secs (some r) (ek.bytes ++ (r.token.bytes ++ t.bytes)) init

lemma decodeInitialize_inv {m : Bytes} {resumption : Option (Resumption C)} {init : Initialized C}
    (h : decodeInitialize seed aad m sk resumption secs = .ok init) :
    Accepted seed aad sk secs resumption m init := by
  obtain ⟨ek, rfl⟩ | ⟨ek, token, rest, rfl⟩ | ⟨hl, hn⟩ := initialize_cases m
  · cases resumption with
    | none =>
      rw [decodeInitialize_full] at h
      obtain ⟨e, he, h⟩ := bind_eq_ok.mp h
      cases ok_inj.mp h
      exact .full ek e (okOr_eq_ok.mp he)
    | some r =>
      obtain ⟨e, he⟩ := decodeInitialize_other seed aad sk secs ek.bytes (some r) (by simp) (by simp)
      simp [he] at h
  · rw [decodeInitialize_token] at h
    obtain ⟨e, he, h⟩ := bind_eq_ok.mp h
    cases resumption with
    | none =>
      cases ok_inj.mp h
      exact .fallback ek token rest e (okOr_eq_ok.mp he)
    | some r =>
      simp only [ne_eq, ite_not] at h
      split at h
      · rename_i htok
        subst htok
        by_cases hl : (ek.bytes ++ (r.token.bytes ++ rest)).length < Initialize.payloadStart + payloadRevStart
        · simp [decodeResumption_short _ _ _ _ _ _ hl] at h
        · obtain ⟨t, rfl, ht⟩ := exists_resumptionTail ek r.token hl
          rw [← List.append_assoc, decodeResumption_tail _ _ _ _ _ _ _ (by simp) ht] at h
          exact .resumption ek r t e init (okOr_eq_ok.mp he) ht h
      · simp at h
  · obtain ⟨e, he⟩ := decodeInitialize_other seed aad sk secs m resumption hl (.inl hn)
    simp [he] at h

lemma returns_resumptionTail (s : SymmetricState C) (r : Resumption C)
    (ss : Arr Mlkem1024.sharedSecretKeyLen) (ct : Arr Mlkem1024.ciphertextLen) (t : Tail) :
    Returns (resumptionTail s sk r secs ss ct t) := by
  simp only [resumptionTail]
  split
  · split
    · exact returns_bind.mpr ⟨returns_mapErr.mpr (AuthenticBundle.returns_verify _ _ _ _ _),
        fun _ _ => returns_ok _⟩
    · exact returns_ok _
  · exact returns_err _

lemma returns_decodeInitialize (m : Bytes) (resumption : Option (Resumption C)) :
    Returns (decodeInitialize seed aad m sk resumption secs) := by
  obtain ⟨ek, rfl⟩ | ⟨ek, token, rest, rfl⟩ | ⟨hl, hn⟩ := initialize_cases m
  · cases resumption with
    | none =>
      rw [decodeInitialize_full]
      exact returns_bind.mpr ⟨returns_okOr _ _, fun _ _ => returns_ok _⟩
    | some r =>
      obtain ⟨e, he⟩ := decodeInitialize_other seed aad sk secs ek.bytes (some r) (by simp) (by simp)
      rw [he]
      exact returns_err e
  · rw [decodeInitialize_token]
    refine returns_bind.mpr ⟨returns_okOr _ _, fun e _ => ?_⟩
    cases resumption with
    | none => exact returns_ok _
    | some r =>
      dsimp only
      split
      · exact returns_err _
      by_cases hl : (ek.bytes ++ (token.bytes ++ rest)).length < Initialize.payloadStart + payloadRevStart
      · rw [decodeResumption_short _ _ _ _ _ _ hl]
        exact returns_err _
      · obtain ⟨t, rfl, ht⟩ := exists_resumptionTail ek token hl
        rw [← List.append_assoc, decodeResumption_tail _ _ _ _ _ _ _ (by simp) ht]
        exact returns_resumptionTail _ _ _ _ _
  · obtain ⟨e, he⟩ := decodeInitialize_other seed aad sk secs m resumption hl (.inl hn)
    rw [he]
    exact returns_err e

end Decode

end ReplyState

namespace InitState

variable {ε : Type}

lemma initializeMessage_full (seed : C.Seed) (aad : Bytes) (sk : SecretBundle C) (payload : Bytes)
    {alloc : C.MessageAlloc} {mem : Bytes}
    (hm : C.mallocMessage alloc Initialize.ephemeralEncKeyEnd = some mem) :
    (initializeMessage seed aad sk none payload alloc : Outcome ε _) =
      .ok (some ((C.generate seed).1.bytes,
        ⟨(SymmetricState.new aad).mix 1 (C.generate seed).1.bytes, none, (C.generate seed).2, payload, sk,
          none⟩)) := by
  have hl := C.mallocMessage_length _ _ _ hm
  have hw : writeSlice mem Initialize.ephemeralEncKeyStart Initialize.ephemeralEncKeyEnd
      (C.generate seed).1.bytes = (.ok (C.generate seed).1.bytes : Outcome ε Bytes) := by
    rw [writeSlice_next [] mem (C.generate seed).1.bytes (by simp) (by simp) (by simp) (by simp [hl])]
    simp [hl]
  simp only [initializeMessage, Option.isSome_none, Bool.false_eq_true, ↓reduceIte, hm, hw, ok_bind]

/-- The signature box is handed over without its tag, so the signature does not fit in it. -/
lemma initializeMessage_resumption (seed : C.Seed) (aad : Bytes) (sk : SecretBundle C) (r : Resumption C)
    (payload : Bytes) {alloc : C.MessageAlloc} {mem : Bytes}
    (hm : C.mallocMessage alloc (Initialize.payloadStart + payload.length + payloadRevStart) = some mem) :
    (initializeMessage seed aad sk (some r) payload alloc : Outcome ε _) = panic .copyLength := by
  have hl := C.mallocMessage_length _ _ _ hm
  have hn : Initialize.payloadStart + payload.length + payloadRevStart = payload.length + 6291 := by
    simp
    omega
  rw [hn] at hl
  simp only [initializeMessage, Option.isSome_some, ↓reduceIte, hm]
  generalize (C.generate seed).1 = ek
  rw [writeSlice_next [] mem ek.bytes (by simp) (by simp) (by simp) (by simp [hl]), ok_bind,
    writeSlice_next _ _ r.token.bytes rfl (by simp) (by simp) (by simp [hl]), ok_bind, List.nil_append]
  generalize hr : (mem.drop ek.bytes.length).drop r.token.bytes.length = rest
  have hrl : rest.length = payload.length + 4691 := by
    rw [← hr]
    simp [hl]
  generalize hf : ek.bytes ++ r.token.bytes = front
  have hfl : front.length = 1600 := by simp [← hf]
  have hs : slice (front ++ rest) 0 Initialize.resumptionTokenEnd = (.ok front : Outcome ε Bytes) :=
    slice_mid (a := []) (c := rest) (by simp) rfl (by simp [hfl])
  have hml : (front ++ rest).length = payload.length + 6291 := by
    simp [hrl, hfl]
    omega
  simp only [hs, ok_bind, hml, sub_ok (show payloadRevStart ≤ payload.length + 6291 by simp),
    sub_ok (show payloadTagRevStart ≤ payload.length + 6291 by simp),
    sub_ok (show onlineSignRevEnd ≤ payload.length + 6291 by simp),
    sub_ok (show onlineSignTagRevEnd ≤ payload.length + 6291 by simp)]
  generalize ((SymmetricState.new aad).mix 9 front).mix 10 r.key.bytes = s
  generalize SymmetricState.checksum _ _ _ Initialize.keyBundleChecksumLen = ck
  rw [writeSlice_next front rest ck.bytes rfl (by simp [hfl]) (by simp [hfl]) (by simp [hrl]), ok_bind,
    writeSlice_next _ _ payload rfl (by simp [hfl]) (by simp [hfl]; omega) (by simp [hrl]), ok_bind]
  obtain ⟨pad, old, q, hp⟩ := exists_pads (b := (rest.drop ck.bytes.length).drop payload.length)
    (by simp [hrl]; omega)
  have he := s.encrypt_tail (ε := ε) 11 front (ck.bytes ++ payload) (old.bytes ++ q.bytes) pad.size
    (e := payload.length + 6291 - payloadTagRevStart) (by simp [hfl]; omega)
  rw [hp, List.append_assoc front, List.append_assoc front]
  rw [hfl] at he
  rw [show Initialize.keyBundleChecksumStart = 1600 by simp, he, ok_bind]
  generalize hb : s.sealBox 11 (ck.bytes ++ payload) = box
  have hbl : box.length = payload.length + 48 := by
    simp [← hb]
    omega
  have hsl : slice (front ++ (box ++ (old.bytes ++ q.bytes))) (payload.length + 6291 - onlineSignRevEnd)
      (payload.length + 6291 - onlineSignTagRevEnd) = (.ok old.bytes : Outcome ε Bytes) :=
    slice_mid (a := front ++ box) (c := q.bytes) (by simp) (by simp [hfl, hbl]; omega)
      (by simp [hfl, hbl]; omega)
  simp only [withSlice, hsl, ok_bind]
  rw [SymmetricState.sign_panics _ _ _ (by simp) (by simp), panic_bind, panic_bind]

end InitState

end Pqsnet.Transport
