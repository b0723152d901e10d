import Pqsnet.Transport.Correctness
import Pqsnet.Transport.InitializeMessage
import Pqsnet.Transport.ReplyMessage
import Pqsnet.Transport.ConfirmMessage

/-! Each message that an honest party seals is accepted by the other one. -/

namespace Pqsnet.Transport

open Checked Outcome

variable {C : CryptoAndMem}

lemma AuthenticBundle.verify_valid {b : AuthenticBundle C} {secs : UInt64} (ht : b.ValidAt secs)
    {ctx data : Bytes} {sg : Arr Mldsa87.signLen} (h : C.verify b.onlineKey ctx data sg = true) :
    b.verify ctx data sg secs = .ok () :=
  AuthenticBundle.verify_eq_ok.mpr ⟨ht.1, ht.2, h⟩

namespace InitState

variable (hC : C.Correct) (self : InitState C) {ty : UInt8} (hty : ty ≠ Reply.handshakeTypeResume)
  {sk : SecretBundle C}
  (hflags : ty = Reply.handshakeTypeFallback → ¬ (sk.publicBundle.flags &&&
    self.secretKeyBundle.publicBundle.flags &&& KeyBundle.flagReliableStorage > 0))
  (hpin : ∀ expected, self.remoteKeyBundle = some expected →
    expected.offlineHash = sk.publicBundle.offlineHash)

include hC hty hflags hpin

lemma replyBundle_built (hsk : sk.Built) {secs : UInt64} (ht : sk.publicBundle.ValidAt secs)
    (payload : Bytes) (alloc : C.BundleAlloc) : ∃ b : AuthenticBundle C, b.Same sk.publicBundle ∧
      b.ValidAt secs ∧ (∀ ctx data, C.verify b.onlineKey ctx data (sk.sign ctx data) = true) ∧
      self.replyBundle ty (sk.publicBundle.publicBytes ++ payload) secs alloc =
        .ok (b, sk.publicBundle.publicBytes.length) := by
  obtain ⟨b, hb, hsame, hvalid, hver⟩ := AuthenticBundle.authenticate_built hC hsk ht payload alloc
  refine ⟨b, hsame, hvalid, hver, ?_⟩
  have hf : ¬ (ty = Reply.handshakeTypeFallback ∧
      (b.flags &&& self.secretKeyBundle.publicBundle.flags) &&& KeyBundle.flagReliableStorage > 0) := by
    rintro ⟨hfb, h⟩
    rw [hsame.flags] at h
    exact hflags hfb h
  rw [replyBundle, if_pos hty, hb, mapErr_ok, ok_bind, if_neg hf, hsame.publicBytes]
  cases hr : self.remoteKeyBundle with
  | none => rfl
  | some expected =>
    have he : expected.offlineEq b = true := by
      simp [AuthenticBundle.offlineEq, AuthenticBundle.offlineEqRaw, hpin expected hr, hsame.offlineHash]
    simp only [he, Bool.not_true, Bool.false_eq_true, ↓reduceIte]

lemma processReply_sealed {s₀ : SymmetricState C} (hsel : self.selectSymmetric ty = .ok s₀)
    {ct : Arr Mlkem1024.ciphertextLen} {ss : Arr Mlkem1024.sharedSecretKeyLen}
    (hss : C.decapsulate self.decapsulationKey ct = some ss) (hsk : sk.Built)
    {secs : UInt64} (ht : sk.publicBundle.ValidAt secs) (payload : Bytes) (bundleAlloc : C.BundleAlloc)
    (messageAlloc : C.MessageAlloc) {s : SymmetricState C}
    (hs : s = (s₀.mix 2 (ty :: ct.bytes)).mix 3 ss.bytes)
    {r : SymmetricState C × Bytes} (hr : r = s.sealTail 4 5 sk (sk.publicBundle.publicBytes ++ payload)) :
    ∃ b : AuthenticBundle C, b.Same sk.publicBundle ∧
      let p := self.secretKeyBundle.publicBundle.publicBytes ++ self.payload
      self.processReply ((ty :: ct.bytes) ++ r.2) secs bundleAlloc messageAlloc =
        .ok ⟨some (r.1.sealTail 6 7 self.secretKeyBundle p).2,
          (r.1.sealTail 6 7 self.secretKeyBundle p).1.split 8, b, payload⟩ := by
  obtain ⟨t, ht₂, hbox, hsign, ht₁⟩ := s.exists_sealed hC 4 5 sk (sk.publicBundle.publicBytes ++ payload)
  obtain ⟨b, hsame, hvalid, hver, hb⟩ := self.replyBundle_built hC hty hflags hpin hsk ht payload bundleAlloc
  refine ⟨b, hsame, ?_⟩
  have hd : (sk.publicBundle.publicBytes ++ payload).drop sk.publicBundle.publicBytes.length = payload :=
    List.drop_left' rfl
  obtain ⟨m, hm⟩ := hC.mallocMessage messageAlloc
    ((self.secretKeyBundle.publicBundle.publicBytes ++ self.payload).length + payloadRevStart)
  rw [hr, ht₂, ht₁, processReply_tail, replyTail, hsel, ok_bind, hss, okOr_some, ok_bind]
  simp only [← hs, hbox, hsign, ↓reduceIte, hb, ok_bind, AuthenticBundle.verify_valid hvalid (hver _ _),
    mapErr_ok, hty, hd, self.encodeConfirm_eq _ _ _ _ rfl, hm, okOr_some]

end InitState

namespace ReplyState

lemma processConfirm_sealed (hC : C.Correct) (self : ReplyState C) {sk : SecretBundle C}
    (hpin : ∀ h, self.remoteOfflineHash = some h → sk.publicBundle.offlineHash = h)
    (hstorage : ¬ (self.rejectIfRemoteHasReliableStorage ∧
      sk.publicBundle.flags &&& KeyBundle.flagReliableStorage > 0)) (hsk : sk.Built)
    {secs : UInt64} (ht : sk.publicBundle.ValidAt secs) (payload : Bytes) (alloc : C.BundleAlloc)
    {r : SymmetricState C × Bytes}
    (hr : r = self.symmetric.sealTail 6 7 sk (sk.publicBundle.publicBytes ++ payload)) :
    ∃ b : AuthenticBundle C, b.Same sk.publicBundle ∧
      self.processConfirm r.2 secs alloc = .ok ⟨none, r.1.split 8, b, payload⟩ := by
  obtain ⟨t, ht₂, hbox, hsign, ht₁⟩ :=
    self.symmetric.exists_sealed hC 6 7 sk (sk.publicBundle.publicBytes ++ payload)
  obtain ⟨b, hb, hsame, hvalid, hver⟩ := AuthenticBundle.authenticate_built hC hsk ht payload alloc
  refine ⟨b, hsame, ?_⟩
  have hd : (sk.publicBundle.publicBytes ++ payload).drop b.publicBytes.length = payload :=
    List.drop_left' (by rw [hsame.publicBytes])
  have hany : self.remoteOfflineHash.any (fun h => !b.offlineEqRaw h) = false := by
    cases ho : self.remoteOfflineHash with
    | none => rfl
    | some h => simp [AuthenticBundle.offlineEqRaw, hsame.offlineHash, hpin h ho]
  rw [← hsame.flags] at hstorage
  rw [hr, ht₂, ht₁, processConfirm_tail, confirmTail]
  simp only [hbox, hsign, ↓reduceIte, hb, mapErr_ok, ok_bind, hany, Bool.false_eq_true, hstorage,
    AuthenticBundle.verify_valid hvalid (hver _ _), hd]

/-- The responder completes at once on a tail that a holder of the resumption secret sealed with the
checksum of the two bundles in front of the payload. -/
lemma resumptionTail_sealed (hC : C.Correct) (s : SymmetricState C) (sk a : SecretBundle C) (r : Resumption C)
    {secs : UInt64} (ht : r.remoteKeyBundle.ValidAt secs)
    (hver : ∀ ctx data, C.verify r.remoteKeyBundle.onlineKey ctx data (a.sign ctx data) = true)
    (ss : Arr Mlkem1024.sharedSecretKeyLen) (ct : Arr Mlkem1024.ciphertextLen) (payload : Bytes)
    {ck : Arr Initialize.keyBundleChecksumLen}
    (hck : ck = (s.mix 10 r.key.bytes).checksum r.remoteKeyBundle.bundleHash.bytes
      sk.publicBundle.bundleHash.bytes Initialize.keyBundleChecksumLen) :
    ∃ t : Tail, Initialize.keyBundleChecksumLen ≤ t.payload.length ∧
      ((s.mix 10 r.key.bytes).sealTail 11 12 a (ck.bytes ++ payload)).2 = t.bytes ∧
      resumptionTail s sk r secs ss ct t = .ok ⟨ss, ct, Reply.handshakeTypeResume,
        ((s.mix 10 r.key.bytes).sealTail 11 12 a (ck.bytes ++ payload)).1, some (r.remoteKeyBundle, payload),
        some r.remoteKeyBundle.offlineHash⟩ := by
  obtain ⟨t, ht₂, hbox, hsign, ht₁⟩ := (s.mix 10 r.key.bytes).exists_sealed hC 11 12 a (ck.bytes ++ payload)
  have hl : t.payload.length = (ck.bytes ++ payload).length := by
    have := congrArg (List.length ∘ Prod.fst) hbox
    simpa using this
  refine ⟨t, by rw [hl]; simp, ht₂, ?_⟩
  have htake : (ck.bytes ++ payload).take Initialize.keyBundleChecksumLen = ck.bytes := List.take_left' ck.size
  have hdrop : (ck.bytes ++ payload).drop Initialize.keyBundleChecksumLen = payload := List.drop_left' ck.size
  rw [resumptionTail, ht₁]
  simp only [hbox, hsign, Bool.and_self, ↓reduceIte, ← hck, htake, hdrop,
    AuthenticBundle.verify_valid ht (hver _ _), mapErr_ok, ok_bind]

/-- With another checksum in front the same tail only opens a full handshake, whoever signed it. -/
lemma resumptionTail_outdated (hC : C.Correct) (s : SymmetricState C) (sk a : SecretBundle C)
    (r : Resumption C) (secs : UInt64) (ss : Arr Mlkem1024.sharedSecretKeyLen)
    (ct : Arr Mlkem1024.ciphertextLen) (payload : Bytes) {ck : Arr Initialize.keyBundleChecksumLen}
    (hck : (s.mix 10 r.key.bytes).checksum r.remoteKeyBundle.bundleHash.bytes
      sk.publicBundle.bundleHash.bytes Initialize.keyBundleChecksumLen ≠ ck) :
    ∃ t : Tail, Initialize.keyBundleChecksumLen ≤ t.payload.length ∧
      ((s.mix 10 r.key.bytes).sealTail 11 12 a (ck.bytes ++ payload)).2 = t.bytes ∧
      resumptionTail s sk r secs ss ct t = .ok ⟨ss, ct, Reply.handshakeTypeFull,
        ((s.mix 10 r.key.bytes).sealTail 11 12 a (ck.bytes ++ payload)).1, none,
        some r.remoteKeyBundle.offlineHash⟩ := by
  obtain ⟨t, ht₂, hbox, hsign, ht₁⟩ := (s.mix 10 r.key.bytes).exists_sealed hC 11 12 a (ck.bytes ++ payload)
  have hl : t.payload.length = (ck.bytes ++ payload).length := by
    have := congrArg (List.length ∘ Prod.fst) hbox
    simpa using this
  refine ⟨t, by rw [hl]; simp, ht₂, ?_⟩
  have htake : (ck.bytes ++ payload).take Initialize.keyBundleChecksumLen = ck.bytes := List.take_left' ck.size
  rw [resumptionTail, ht₁]
  simp only [hbox, hsign, Bool.and_self, ↓reduceIte, htake, Arr.bytes_inj, hck]

section Initialize

variable (hC : C.Correct) {seed : C.Seed} {aad m : Bytes} {sk : SecretBundle C}
  {resumption : Option (Resumption C)} {secs : UInt64} {init : Initialized C}
  (hi : decodeInitialize seed aad m sk resumption secs = .ok init) (alloc : C.MessageAlloc)
  (createPayload : Unit → Bytes)

include hC hi

lemma processInitialize_complete {b : AuthenticBundle C} {p : Bytes} (hres : init.resume = some (b, p)) :
    processInitialize seed aad m sk resumption secs alloc createPayload =
      .ok (.complete ⟨some (replyBytes init sk (createPayload ())),
        (replySealed init sk (createPayload ())).1.split 13, b, p⟩) := by
  obtain ⟨mem, hm⟩ := hC.mallocMessage alloc
    (Reply.payloadStart + (replyPlaintext init sk (createPayload ())).length + payloadRevStart)
  rw [processInitialize, hi, ok_bind, encodeReply_eq, hm, okOr_some, ok_bind, hres]

lemma processInitialize_incomplete (hres : init.resume = none) :
    processInitialize seed aad m sk resumption secs alloc createPayload =
      .ok (.incomplete (replyBytes init sk (createPayload ())) ⟨(replySealed init sk (createPayload ())).1,
        init.remoteOfflineHash, decide (init.handshakeType = Reply.handshakeTypeFallback) &&
          decide (sk.publicBundle.flags &&& KeyBundle.flagReliableStorage > 0)⟩) := by
  obtain ⟨mem, hm⟩ := hC.mallocMessage alloc
    (Reply.payloadStart + (replyPlaintext init sk (createPayload ())).length + payloadRevStart)
  rw [processInitialize, hi, ok_bind, encodeReply_eq, hm, okOr_some, ok_bind, hres]

end Initialize

section Resume

variable (hC : C.Correct) (seed₁ seed₂ : C.Seed) (aad : Bytes) (sk a : SecretBundle C) (r : Resumption C)
  {secs : UInt64} (payload : Bytes) (alloc : C.MessageAlloc) (createPayload : Unit → Bytes)

-- The state in which the tail of a resumption message is sealed, and the message.
def resumptionState : SymmetricState C :=
  ((SymmetricState.new aad).mix 9 ((C.generate seed₁).1.bytes ++ r.token.bytes)).mix 10 r.key.bytes

def resumptionMessage (ck : Arr Initialize.keyBundleChecksumLen) : Bytes :=
  (C.generate seed₁).1.bytes ++ (r.token.bytes ++
    ((resumptionState seed₁ aad r).sealTail 11 12 a (ck.bytes ++ payload)).2)

include hC

lemma processInitialize_resume (ht : r.remoteKeyBundle.ValidAt secs)
    (hver : ∀ ctx data, C.verify r.remoteKeyBundle.onlineKey ctx data (a.sign ctx data) = true)
    {ck : Arr Initialize.keyBundleChecksumLen}
    (hck : ck = (resumptionState seed₁ aad r).checksum r.remoteKeyBundle.bundleHash.bytes
      sk.publicBundle.bundleHash.bytes Initialize.keyBundleChecksumLen) :
    ∃ hc, processInitialize seed₂ aad (resumptionMessage seed₁ aad a r payload ck) sk (some r) secs alloc
        createPayload = .ok (.complete hc) ∧ hc.recvPayload = payload := by
  obtain ⟨ss, ct, henc, _⟩ := hC.decapsulate_encapsulate seed₁ seed₂
  obtain ⟨t, htl, ht₂, hi⟩ := resumptionTail_sealed hC _ sk a r ht hver ss ct payload hck
  have hd := decodeInitialize_token seed₂ aad sk secs (C.generate seed₁).1 r.token t.bytes (some r)
  rw [henc, okOr_some, ok_bind] at hd
  simp only [ne_eq, not_true_eq_false, ↓reduceIte] at hd
  rw [← List.append_assoc, decodeResumption_tail _ _ _ _ _ _ _ (by simp) htl, hi, List.append_assoc] at hd
  rw [resumptionMessage, resumptionState, ht₂]
  exact ⟨_, processInitialize_complete hC hd alloc createPayload rfl, rfl⟩

lemma processInitialize_outdated {ck : Arr Initialize.keyBundleChecksumLen}
    (hck : (resumptionState seed₁ aad r).checksum r.remoteKeyBundle.bundleHash.bytes
      sk.publicBundle.bundleHash.bytes Initialize.keyBundleChecksumLen ≠ ck) :
    ∃ replyMessage state, processInitialize seed₂ aad (resumptionMessage seed₁ aad a r payload ck) sk (some r)
        secs alloc createPayload = .ok (.incomplete replyMessage state) ∧
      state.remoteOfflineHash = some r.remoteKeyBundle.offlineHash := by
  obtain ⟨ss, ct, henc, _⟩ := hC.decapsulate_encapsulate seed₁ seed₂
  obtain ⟨t, htl, ht₂, hi⟩ := resumptionTail_outdated hC _ sk a r secs ss ct payload hck
  have hd := decodeInitialize_token seed₂ aad sk secs (C.generate seed₁).1 r.token t.bytes (some r)
  rw [henc, okOr_some, ok_bind] at hd
  simp only [ne_eq, not_true_eq_false, ↓reduceIte] at hd
  rw [← List.append_assoc, decodeResumption_tail _ _ _ _ _ _ _ (by simp) htl, hi, List.append_assoc] at hd
  rw [resumptionMessage, resumptionState, ht₂]
  exact ⟨_, _, processInitialize_incomplete hC hd alloc createPayload rfl, rfl⟩

lemma processInitialize_fallback (token : ResumptionToken) (rest : Bytes) :
    ∃ replyMessage state, processInitialize seed₂ aad ((C.generate seed₁).1.bytes ++ (token.bytes ++ rest)) sk
        none secs alloc createPayload = .ok (.incomplete replyMessage state) ∧
      state.remoteOfflineHash = none := by
  obtain ⟨ss, ct, henc, _⟩ := hC.decapsulate_encapsulate seed₁ seed₂
  have hd := decodeInitialize_token seed₂ aad sk secs (C.generate seed₁).1 token rest none
  rw [henc, okOr_some, ok_bind] at hd
  exact ⟨_, _, processInitialize_incomplete hC hd alloc createPayload rfl, rfl⟩

end Resume

end ReplyState

end Pqsnet.Transport
