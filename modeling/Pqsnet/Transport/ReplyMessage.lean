import Pqsnet.Transport.Initiator
import Pqsnet.Transport.Responder
import Pqsnet.Transport.Boxes
import Pqsnet.Transport.BundleAuthentication

/-! The reply message at the level of its fields. -/

namespace Pqsnet.Transport

open Checked Outcome

variable {C : CryptoAndMem}

namespace InitState

-- The bundle a reply is signed under, with its length within the opened payload.
def replyBundle (self : InitState C) (handshakeType : UInt8) (p : Bytes) (secs : UInt64)
    (alloc : C.BundleAlloc) : Outcome Error (AuthenticBundle C × ℕ) :=
  if handshakeType ≠ Reply.handshakeTypeResume then do
    let b ← mapErr (fun _ => Error.inauthentic) (AuthenticBundle.authenticate p secs alloc)
    if handshakeType = Reply.handshakeTypeFallback ∧
        (b.flags &&& self.secretKeyBundle.publicBundle.flags) &&& KeyBundle.flagReliableStorage > 0 then
      err .inauthentic
    else
      match self.remoteKeyBundle with
      | some expected => if !expected.offlineEq b then err .inauthentic else .ok (b, b.publicBytes.length)
      | none => .ok (b, b.publicBytes.length)
  else
    match self.remoteKeyBundle with
    | some b => .ok (b, 0)
    | none => err .invalid

lemma remoteBundle_eq (self : InitState C) (ty : UInt8) {front : Bytes} (t : Tail) {e : ℕ} (secs : UInt64)
    (alloc : C.BundleAlloc) (hf : front.length = Reply.payloadStart) (he : e = front.length + t.payload.length) :
    self.remoteBundle ty (front ++ t.bytes) e secs alloc =
      self.replyBundle ty t.payload secs alloc >>= fun r => .ok (r.1, Reply.payloadStart + r.2) := by
  have hs := Tail.slice_payload (ε := Error) front t (i := Reply.payloadStart) (k := 0) (by simp) (by omega) he
  simp only [remoteBundle, replyBundle, hs, ok_bind, List.drop_zero]
  split
  · cases AuthenticBundle.authenticate t.payload secs alloc with
    | error s => simp only [mapErr_error, error_bind]
    | ok b =>
      simp only [mapErr_ok, ok_bind]
      split
      · rw [err_bind]
      · cases self.remoteKeyBundle with
        | none => simp only [ok_bind]
        | some expected =>
          simp only
          split
          · rw [err_bind]
          · rw [ok_bind]
  · cases self.remoteKeyBundle with
    | none => simp only [err_bind]
    | some b => simp only [ok_bind, Nat.add_zero]

lemma replyBundle_inv {self : InitState C} {ty : UInt8} {p : Bytes} {secs : UInt64} {alloc : C.BundleAlloc}
    {b : AuthenticBundle C} {n : ℕ} (h : self.replyBundle ty p secs alloc = .ok (b, n)) :
    (ty ≠ Reply.handshakeTypeResume ∧ AuthenticBundle.authenticate p secs alloc = .ok b ∧
      n = b.publicBytes.length ∧
      ¬ (ty = Reply.handshakeTypeFallback ∧
        (b.flags &&& self.secretKeyBundle.publicBundle.flags) &&& KeyBundle.flagReliableStorage > 0) ∧
      ∀ expected, self.remoteKeyBundle = some expected → expected.offlineHash = b.offlineHash) ∨
    (ty = Reply.handshakeTypeResume ∧ self.remoteKeyBundle = some b ∧ n = 0) := by
  rw [replyBundle] at h
  split at h
  · rename_i hty
    obtain ⟨b', hb, h⟩ := bind_eq_ok.mp h
    rw [mapErr_eq_ok] at hb
    split at h
    · simp at h
    rename_i hflags
    refine Or.inl ⟨hty, ?_⟩
    cases hr : self.remoteKeyBundle with
    | none =>
      simp only [hr, ok_inj, Prod.mk.injEq] at h
      obtain ⟨rfl, rfl⟩ := h
      exact ⟨hb, rfl, hflags, by simp⟩
    | some expected =>
      simp only [hr] at h
      split at h
      · simp at h
      rename_i hpin
      simp only [ok_inj, Prod.mk.injEq] at h
      obtain ⟨rfl, rfl⟩ := h
      refine ⟨hb, rfl, hflags, ?_⟩
      rintro _ ⟨⟩
      simpa [AuthenticBundle.offlineEq, AuthenticBundle.offlineEqRaw] using hpin
  · rename_i hty
    refine Or.inr ⟨not_not.mp hty, ?_⟩
    cases hr : self.remoteKeyBundle with
    | none => simp [hr] at h
    | some b' =>
      simp only [hr, ok_inj, Prod.mk.injEq] at h
      obtain ⟨rfl, rfl⟩ := h
      exact ⟨rfl, rfl⟩

lemma replyBundle_le {self : InitState C} {ty : UInt8} {p : Bytes} {secs : UInt64} {alloc : C.BundleAlloc}
    {b : AuthenticBundle C} {n : ℕ} (h : self.replyBundle ty p secs alloc = .ok (b, n)) : n ≤ p.length := by
  rcases replyBundle_inv h with ⟨_, hb, rfl, _⟩ | ⟨_, _, rfl⟩
  · obtain ⟨suffix, rfl⟩ := AuthenticBundle.authenticate_front hb
    simp
  · exact Nat.zero_le _

def replyTail (self : InitState C) (ty : UInt8) (ct : Arr Mlkem1024.ciphertextLen) (t : Tail) (secs : UInt64)
    (bundleAlloc : C.BundleAlloc) (messageAlloc : C.MessageAlloc) : Outcome Error (HandshakeComplete C) := do
  let s ← self.selectSymmetric ty
  let sharedSecret ← okOr (C.decapsulate self.decapsulationKey ct) .inauthentic
  let s := (s.mix 2 (ty :: ct.bytes)).mix 3 sharedSecret.bytes
  let box := s.openBox 4 t.payload t.payloadTag
  let s := s.mix 4 t.payloadBox
  let sign := s.openSign 5 t
  if box.2 then do
    let (b, n) ← self.replyBundle ty box.1 secs bundleAlloc
    if sign.2 then do
      mapErr AuthError.toError (b.verify [5] s.channelBinding.bytes sign.1 secs)
      let s := s.mix 5 t.signBox
      if ty = Reply.handshakeTypeResume then .ok ⟨none, s.split 13, b, box.1.drop n⟩
      else self.encodeConfirm s b (box.1.drop n) messageAlloc
    else err .inauthentic
  else err .inauthentic

lemma processReply_tail (self : InitState C) (ty : UInt8) (ct : Arr Mlkem1024.ciphertextLen) (t : Tail)
    (secs : UInt64) (bundleAlloc : C.BundleAlloc) (messageAlloc : C.MessageAlloc) :
    self.processReply ((ty :: ct.bytes) ++ t.bytes) secs bundleAlloc messageAlloc =
      self.replyTail ty ct t secs bundleAlloc messageAlloc := by
  generalize hm : (ty :: ct.bytes) ++ t.bytes = m
  have hf : (ty :: ct.bytes).length = Reply.payloadStart := by simp
  have hml : m.length = Reply.payloadStart + (t.payload.length + payloadRevStart) := by
    rw [← hm, List.length_append, hf, Tail.bytes_length]
  have hl : ¬ (m.length < Reply.payloadStart + payloadRevStart) := by omega
  have hty : (index m Reply.handshakeTypeIdx : Outcome Error UInt8) = .ok ty := index_ok (by rw [← hm]; rfl)
  have hct : (slice m Reply.ephemeralCiphertextStart Reply.ephemeralCiphertextEnd : Outcome Error Bytes) =
      .ok ct.bytes := slice_mid (a := [ty]) (c := t.bytes) (by rw [← hm]; rfl) (by simp) (by simp)
  have hhead : (slice m 0 Reply.ephemeralCiphertextEnd : Outcome Error Bytes) = .ok (ty :: ct.bytes) :=
    slice_mid (a := []) (c := t.bytes) (by rw [← hm]; rfl) (by simp) (by simp)
  rw [processReply, if_neg hl]
  simp only [replyTail, hty, hct, hhead, ok_bind, tryInto_arr,
    sub_ok (show payloadRevStart ≤ m.length by omega),
    sub_ok (show payloadTagRevStart ≤ m.length by simp only [payloadRevStart, payloadTagRevEnd] at hml; omega),
    sub_ok (show onlineSignRevEnd ≤ m.length by
      simp only [payloadRevStart, payloadTagRevEnd, payloadTagRevStart] at hml; omega),
    sub_ok (show onlineSignTagRevStart ≤ m.length by simp)]
  cases self.selectSymmetric ty with
  | error e => simp only [error_bind]
  | ok s₀ =>
  cases C.decapsulate self.decapsulationKey ct with
  | none => simp only [okOr_none, ok_bind, err_bind]
  | some ss =>
  simp only [okOr_some, ok_bind]
  generalize (s₀.mix 2 (ty :: ct.bytes)).mix 3 ss.bytes = s
  have hd := s.decrypt_tail 4 (ty :: ct.bytes) t (e := m.length - payloadTagRevStart) (by simp [hml]; omega)
  rw [hm, hf] at hd
  rw [hd]
  by_cases ho : (s.openBox 4 t.payload t.payloadTag).2
  · have hpl := s.openBox_length 4 t.payload t.payloadTag
    generalize (s.openBox 4 t.payload t.payloadTag).1 = p at hpl
    simp only [ho, ↓reduceIte, ok_bind]
    have hpe : m.length - payloadRevStart = (ty :: ct.bytes).length + p.length := by
      simp [hml, hpl]
      omega
    rw [remoteBundle_eq self ty (t.withPayload p) secs bundleAlloc hf hpe]
    change ((self.replyBundle ty p secs bundleAlloc >>= _) >>= _) = _
    cases hb : self.replyBundle ty p secs bundleAlloc with
    | error e => simp only [error_bind]
    | ok r =>
      obtain ⟨b, n⟩ := r
      simp only [ok_bind]
      have hv := (s.mix 4 t.payloadBox).verify_tail 5 (ty :: ct.bytes) t b secs p
        (i := m.length - onlineSignRevEnd) (e := m.length - onlineSignTagRevStart)
        (by simp [hml, hpl]; omega) (by simp [hml, hpl, Tail.withPayload])
      rw [hv]
      split
      · rw [mapErr_bind]
        cases b.verify [5] (s.mix 4 t.payloadBox).channelBinding.bytes ((s.mix 4 t.payloadBox).openSign 5 t).1
            secs with
        | error e => simp only [mapErr_error, error_bind]
        | ok _ =>
          have hr := Tail.slice_payload (ε := Error) (ty :: ct.bytes)
            (t.opened p ((s.mix 4 t.payloadBox).openSign 5 t).1) (i := Reply.payloadStart + n) (k := n)
            (e := m.length - payloadRevStart) (replyBundle_le hb) (by rw [hf]) hpe
          simp only [ok_bind, mapErr_ok, hr]
          rfl
      · simp only [mapErr_err, err_bind]
        rfl
  · simp only [ho, Bool.false_eq_true, ↓reduceIte, err_bind]

end InitState

namespace ReplyState

def replyPlaintext (init : Initialized C) (sk : SecretBundle C) (payload : Bytes) : Bytes :=
  (if init.handshakeType = Reply.handshakeTypeResume then [] else sk.publicBundle.publicBytes) ++ payload

def replyState (init : Initialized C) : SymmetricState C :=
  (init.symmetric.mix 2 (init.handshakeType :: init.ciphertext.bytes)).mix 3 init.sharedSecret.bytes

def replySealed (init : Initialized C) (sk : SecretBundle C) (payload : Bytes) : SymmetricState C × Bytes :=
  (replyState init).sealTail 4 5 sk (replyPlaintext init sk payload)

def replyBytes (init : Initialized C) (sk : SecretBundle C) (payload : Bytes) : Bytes :=
  (init.handshakeType :: init.ciphertext.bytes) ++ (replySealed init sk payload).2

lemma encodeReply_eq (init : Initialized C) (sk : SecretBundle C) (payload : Bytes) (alloc : C.MessageAlloc) :
    encodeReply init sk payload alloc =
      okOr (C.mallocMessage alloc (Reply.payloadStart + (replyPlaintext init sk payload).length +
        payloadRevStart)) .allocFailure >>= fun _ =>
      match init.resume with
      | some (b, recvPayload) => .ok (.complete ⟨some (replyBytes init sk payload),
          (replySealed init sk payload).1.split 13, b, recvPayload⟩)
      | none => .ok (.incomplete (replyBytes init sk payload) ⟨(replySealed init sk payload).1,
          init.remoteOfflineHash, decide (init.handshakeType = Reply.handshakeTypeFallback) &&
            decide (sk.publicBundle.flags &&& KeyBundle.flagReliableStorage > 0)⟩) := by
  generalize hk : (if init.handshakeType = Reply.handshakeTypeResume then [] else sk.publicBundle.publicBytes) = k
  have hp : replyPlaintext init sk payload = k ++ payload := by rw [replyPlaintext, hk]
  have hn : (if init.handshakeType = Reply.handshakeTypeResume then
        Reply.payloadStart + payload.length + payloadRevStart
      else Reply.payloadStart + sk.publicBundle.publicBytes.length + payload.length + payloadRevStart) =
      Reply.payloadStart + (replyPlaintext init sk payload).length + payloadRevStart := by
    rw [hp, ← hk]
    split <;> simp <;> omega
  simp only [encodeReply, hn]
  cases hm : C.mallocMessage alloc (Reply.payloadStart + (replyPlaintext init sk payload).length +
      payloadRevStart) with
  | none => simp only [okOr_none, err_bind]
  | some mem =>
  have hl := C.mallocMessage_length _ _ _ hm
  rw [hp] at hl
  simp only [List.length_append] at hl
  have hw₁ := writeSlice_next (ε := ReplyError) [] mem [init.handshakeType] (b := mem)
    (s := Reply.handshakeTypeIdx) (e := Reply.handshakeTypeEnd) rfl rfl (by simp) (by simp [hl])
  have hw₂ := writeSlice_next (ε := ReplyError) [init.handshakeType] (mem.drop 1) init.ciphertext.bytes
    (s := Reply.ephemeralCiphertextStart) (e := Reply.ephemeralCiphertextEnd) rfl (by simp) (by simp)
    (by simp [hl])
  simp only [okOr_some, ok_bind, hw₁, List.nil_append, List.length_singleton, hw₂]
  generalize hrest : (mem.drop 1).drop init.ciphertext.bytes.length = rest
  have hrl : rest.length = k.length + payload.length + payloadRevStart := by
    rw [← hrest]
    simp [hl]
    omega
  generalize hfront : [init.handshakeType] ++ init.ciphertext.bytes = front
  have hf : front.length = Reply.payloadStart := by rw [← hfront]; simp
  have hslice : (slice (front ++ rest) 0 Reply.ephemeralCiphertextEnd : Outcome ReplyError Bytes) = .ok front :=
    slice_mid (a := []) (c := rest) rfl rfl (by simpa using hf.symm)
  have hbundle : writeBundle init.handshakeType sk.publicBundle.publicBytes (front ++ rest) =
      .ok (front ++ k ++ rest.drop k.length) := by
    unfold writeBundle
    split
    · rename_i hty
      rw [if_neg hty] at hk
      subst hk
      exact writeSlice_next front rest _ rfl hf.symm (by rw [hf]) (by omega)
    · rename_i hty
      rw [if_pos (not_not.mp hty)] at hk
      subst hk
      simp
  have hbl : (front ++ k ++ rest.drop k.length).length =
      front.length + k.length + payload.length + payloadRevStart := by
    simp only [List.length_append, List.length_drop, hrl]
    omega
  simp only [hslice, ok_bind, hbundle, hbl,
    sub_ok (show payloadRevStart ≤ front.length + k.length + payload.length + payloadRevStart by omega),
    sub_ok (show payloadTagRevStart ≤ front.length + k.length + payload.length + payloadRevStart by
      simp only [payloadRevStart, payloadTagRevEnd]; omega),
    sub_ok (show onlineSignRevEnd ≤ front.length + k.length + payload.length + payloadRevStart by
      simp only [payloadRevStart, payloadTagRevEnd, payloadTagRevStart]; omega),
    sub_ok (show onlineSignTagRevStart ≤ front.length + k.length + payload.length + payloadRevStart by simp),
    sub_ok (show payload.length ≤ front.length + k.length + payload.length + payloadRevStart - payloadRevStart by
      omega)]
  rw [writeSlice_next (front ++ k) (rest.drop k.length) payload rfl (by simp) (by simp)
    (by simp [hrl]; omega), ok_bind]
  obtain ⟨pad, old, q, hpads⟩ := exists_pads (b := (rest.drop k.length).drop payload.length)
    (by simp [hrl])
  rw [hpads, List.append_assoc front, ← hp, List.append_assoc]
  have he := (replyState init).encrypt_tail (ε := ReplyError) 4 front (replyPlaintext init sk payload)
    (old.bytes ++ q.bytes) pad.size
    (e := front.length + k.length + payload.length + payloadRevStart - payloadTagRevStart)
    (by simp [hp]; omega)
  have hstate : (init.symmetric.mix 2 front).mix 3 init.sharedSecret.bytes = replyState init := by
    rw [replyState, ← hfront]
    rfl
  rw [hstate, ← hf, he, ok_bind]
  have hs := ((replyState init).mix 4 ((replyState init).sealBox 4 (replyPlaintext init sk payload))).sign_tail
    (ε := ReplyError) 5 (front ++ (replyState init).sealBox 4 (replyPlaintext init sk payload)) sk old.size q.size
    (i := front.length + k.length + payload.length + payloadRevStart - onlineSignRevEnd)
    (e := front.length + k.length + payload.length + payloadRevStart - onlineSignTagRevStart)
    (by simp [hp]; omega) (by simp [hp]; omega)
  rw [← List.append_assoc front, hs, ok_bind]
  have hbytes : replyBytes init sk payload = front ++ (replySealed init sk payload).2 := by
    rw [← hfront]
    rfl
  rw [hbytes]
  cases init.resume with
  | none => simp [replySealed, SymmetricState.sealTail]
  | some r => simp [replySealed, SymmetricState.sealTail]

end ReplyState

end Pqsnet.Transport
