import Pqsnet.Transport.InitializeMessage
import Pqsnet.Transport.ReplyMessage
import Pqsnet.Transport.ConfirmMessage

/-! What a party has checked by the time it accepts a message. -/

namespace Pqsnet.Transport

open Checked Outcome

variable {C : CryptoAndMem}

/-- The tail `t`, read in the state `s`, was sealed by a peer that holds the key of `kb`: both tags
were accepted, and the signature covers the transcript up to and with the payload box. -/
structure Authenticated (s : SymmetricState C) (payloadStep signStep : UInt8) (t : Tail)
    (kb : AuthenticBundle C) (secs : UInt64) : Prop where
  payloadTag : (s.openBox payloadStep t.payload t.payloadTag).2 = true
  onlineSignTag : ((s.mix payloadStep t.payloadBox).openSign signStep t).2 = true
  notBefore : kb.notBefore ≤ secs
  notAfter : secs ≤ kb.notAfter
  onlineSign : C.verify kb.onlineKey [signStep] (s.mix payloadStep t.payloadBox).channelBinding.bytes
    ((s.mix payloadStep t.payloadBox).openSign signStep t).1 = true

/-- The bundle stands at the front of the plaintext, and its offline key certified the bytes before
the signature. -/
inductive Certified (kb : AuthenticBundle C) : Bytes → Prop
  | intro (d : BundleHead) (ext : Bytes) (sign : Arr Mldsa87.signLen) (payload : Bytes) (offlineKey onlineKey)
    (hext : ext.length = d.extensionsLen.toNat) (hoffline : C.decode d.offlineKey = some offlineKey)
    (hsign : C.verify offlineKey Domain.offlineKeyCertification (d.bytes ++ ext) sign = true)
    (honline : C.decode d.onlineKey = some onlineKey)
    (hkb : kb = .ofHead d onlineKey (ext ++ sign.bytes)) :
    Certified kb (d.bytes ++ ext ++ sign.bytes ++ payload)

lemma AuthenticBundle.authenticate_certified {p : Bytes} {secs : UInt64} {alloc : C.BundleAlloc}
    {kb : AuthenticBundle C} (h : authenticate p secs alloc = .ok kb) : Certified kb p := by
  obtain ⟨d, ext, sign, payload, offlineKey, onlineKey, rfl, hext, _, _, _, hoff, hsign, hon, hkb⟩ :=
    authenticate_inv h
  rw [← List.append_assoc, ← List.append_assoc]
  exact ⟨d, ext, sign, payload, offlineKey, onlineKey, hext, hoff, hsign, hon, hkb⟩

namespace ReplyState

structure ConfirmAccepted (state : ReplyState C) (t : Tail) (secs : UInt64) (hc : HandshakeComplete C) :
    Prop where
  authenticated : Authenticated state.symmetric 6 7 t hc.remoteKeyBundle secs
  certified : Certified hc.remoteKeyBundle (state.symmetric.openBox 6 t.payload t.payloadTag).1
  pinned : ∀ h, state.remoteOfflineHash = some h → hc.remoteKeyBundle.offlineHash = h
  storage : ¬ (state.rejectIfRemoteHasReliableStorage ∧
    hc.remoteKeyBundle.flags &&& KeyBundle.flagReliableStorage > 0)
  keys : hc.keys = ((state.symmetric.mix 6 t.payloadBox).mix 7 t.signBox).split 8

lemma processConfirm_inv {self : ReplyState C} {m : Bytes} {secs : UInt64} {alloc : C.BundleAlloc}
    {hc : HandshakeComplete C} (h : self.processConfirm m secs alloc = .ok hc) :
    ∃ t : Tail, m = t.bytes ∧ self.ConfirmAccepted t secs hc := by
  by_cases hl : m.length < Confirm.payloadStart + payloadRevStart
  · rw [processConfirm, if_pos hl] at h
    simp at h
  obtain ⟨t, rfl⟩ := Tail.exists_bytes (b := m) (by simpa using hl)
  refine ⟨t, rfl, ?_⟩
  rw [processConfirm_tail, confirmTail] at h
  split at h
  · rename_i hbox
    obtain ⟨b, hb, h⟩ := bind_eq_ok.mp h
    split at h
    · simp at h
    rename_i hpin
    split at h
    · simp at h
    rename_i hstorage
    split at h
    · rename_i hsign
      obtain ⟨_, hv, h⟩ := bind_eq_ok.mp h
      rw [mapErr_eq_ok] at hb hv
      obtain ⟨hnb, hna, hver⟩ := AuthenticBundle.verify_eq_ok.mp hv
      cases ok_inj.mp h
      refine ⟨⟨hbox, hsign, hnb, hna, hver⟩, AuthenticBundle.authenticate_certified hb, ?_, hstorage, rfl⟩
      intro o ho
      simpa [ho, AuthenticBundle.offlineEqRaw] using hpin
    · simp at h
  · simp at h

lemma resumptionTail_inv {s : SymmetricState C} {sk : SecretBundle C} {r : Resumption C} {secs : UInt64}
    {ss : Arr Mlkem1024.sharedSecretKeyLen} {ct : Arr Mlkem1024.ciphertextLen} {t : Tail} {init : Initialized C}
    (h : resumptionTail s sk r secs ss ct t = .ok init) :
    ∃ ty resume, init = ⟨ss, ct, ty, ((s.mix 10 r.key.bytes).mix 11 t.payloadBox).mix 12 t.signBox, resume,
        some r.remoteKeyBundle.offlineHash⟩ ∧
      ((ty = Reply.handshakeTypeFull ∧ resume = none) ∨
        (ty = Reply.handshakeTypeResume ∧ (∃ p, resume = some (r.remoteKeyBundle, p)) ∧
          Authenticated (s.mix 10 r.key.bytes) 11 12 t r.remoteKeyBundle secs)) := by
  simp only [resumptionTail] at h
  split at h
  · rename_i hbs
    obtain ⟨hbox, hsign⟩ := Bool.and_eq_true_iff.mp hbs
    split at h
    · obtain ⟨_, hv, h⟩ := bind_eq_ok.mp h
      obtain ⟨hnb, hna, hver⟩ := AuthenticBundle.verify_eq_ok.mp (mapErr_eq_ok.mp hv)
      exact ⟨_, _, (ok_inj.mp h).symm, .inr ⟨rfl, ⟨_, rfl⟩, hbox, hsign, hnb, hna, hver⟩⟩
    · exact ⟨_, _, (ok_inj.mp h).symm, .inl ⟨rfl, rfl⟩⟩
  · simp at h

/-- The two ways to answer an initialize message that was decoded. -/
inductive Replied (init : Initialized C) (sk : SecretBundle C) (payload : Bytes) : InitOk C → Prop
  | complete (b : AuthenticBundle C) (p : Bytes) (h : init.resume = some (b, p)) :
    Replied init sk payload (.complete ⟨some (replyBytes init sk payload),
      (replySealed init sk payload).1.split 13, b, p⟩)
  | incomplete (h : init.resume = none) :
    Replied init sk payload (.incomplete (replyBytes init sk payload) ⟨(replySealed init sk payload).1,
      init.remoteOfflineHash, decide (init.handshakeType = Reply.handshakeTypeFallback) &&
        decide (sk.publicBundle.flags &&& KeyBundle.flagReliableStorage > 0)⟩)

lemma processInitialize_inv {seed : C.Seed} {aad m : Bytes} {sk : SecretBundle C}
    {resumption : Option (Resumption C)} {secs : UInt64} {alloc : C.MessageAlloc} {createPayload : Unit → Bytes}
    {r : InitOk C} (h : processInitialize seed aad m sk resumption secs alloc createPayload = .ok r) :
    ∃ init, Accepted seed aad sk secs resumption m init ∧ Replied init sk (createPayload ()) r := by
  obtain ⟨init, hi, h⟩ := bind_eq_ok.mp h
  refine ⟨init, decodeInitialize_inv hi, ?_⟩
  rw [encodeReply_eq] at h
  obtain ⟨_, _, h⟩ := bind_eq_ok.mp h
  cases hr : init.resume with
  | none =>
    rw [hr] at h
    cases ok_inj.mp h
    exact .incomplete hr
  | some bp =>
    rw [hr] at h
    cases ok_inj.mp h
    exact .complete bp.1 bp.2 hr

end ReplyState

namespace InitState

structure ReplyAccepted (init : InitState C) (ty : UInt8) (ct : Arr Mlkem1024.ciphertextLen) (t : Tail)
    (s₀ : SymmetricState C) (ss : Arr Mlkem1024.sharedSecretKeyLen) (s : SymmetricState C) (secs : UInt64)
    (alloc : C.BundleAlloc) (hc : HandshakeComplete C) : Prop where
  select : init.selectSymmetric ty = .ok s₀
  sharedSecret : C.decapsulate init.decapsulationKey ct = some ss
  state : s = (s₀.mix 2 (ty :: ct.bytes)).mix 3 ss.bytes
  authenticated : Authenticated s 4 5 t hc.remoteKeyBundle secs
  bundle : ∃ n, init.replyBundle ty (s.openBox 4 t.payload t.payloadTag).1 secs alloc =
    .ok (hc.remoteKeyBundle, n)
  keys : (ty = Reply.handshakeTypeResume ∧ hc.messageToSend = none ∧
      hc.keys = ((s.mix 4 t.payloadBox).mix 5 t.signBox).split 13) ∨
    (ty ≠ Reply.handshakeTypeResume ∧ ∃ p,
      hc.messageToSend = some (((s.mix 4 t.payloadBox).mix 5 t.signBox).sealTail 6 7 init.secretKeyBundle p).2 ∧
      hc.keys = (((s.mix 4 t.payloadBox).mix 5 t.signBox).sealTail 6 7 init.secretKeyBundle p).1.split 8)

lemma exists_reply {m : Bytes} (h : ¬ m.length < Reply.payloadStart + payloadRevStart) :
    ∃ (ty : UInt8) (ct : Arr Mlkem1024.ciphertextLen) (t : Tail), m = (ty :: ct.bytes) ++ t.bytes := by
  obtain ⟨ty, m, rfl⟩ := List.exists_cons_of_length_pos (l := m) (by simp at h; omega)
  obtain ⟨ct, m, rfl⟩ := exists_front (n := Mlkem1024.ciphertextLen) (b := m) (by simp at h ⊢; omega)
  obtain ⟨t, rfl⟩ := Tail.exists_bytes (b := m) (by simp at h ⊢; omega)
  exact ⟨ty, ct, t, rfl⟩

lemma processReply_inv {self : InitState C} {m : Bytes} {secs : UInt64} {ba : C.BundleAlloc}
    {ma : C.MessageAlloc} {hc : HandshakeComplete C} (h : self.processReply m secs ba ma = .ok hc) :
    ∃ ty ct t s₀ ss s, m = (ty :: ct.bytes) ++ t.bytes ∧ self.ReplyAccepted ty ct t s₀ ss s secs ba hc := by
  by_cases hl : m.length < Reply.payloadStart + payloadRevStart
  · rw [processReply, if_pos hl] at h
    simp at h
  obtain ⟨ty, ct, t, rfl⟩ := exists_reply hl
  rw [processReply_tail, replyTail] at h
  obtain ⟨s₀, hs₀, h⟩ := bind_eq_ok.mp h
  obtain ⟨ss, hss, h⟩ := bind_eq_ok.mp h
  rw [okOr_eq_ok] at hss
  dsimp only at h
  generalize hs : (s₀.mix 2 (ty :: ct.bytes)).mix 3 ss.bytes = s at h
  refine ⟨ty, ct, t, s₀, ss, s, rfl, ?_⟩
  split at h
  · rename_i hbox
    obtain ⟨⟨b, n⟩, hb, h⟩ := bind_eq_ok.mp h
    dsimp only at h
    split at h
    · rename_i hsign
      obtain ⟨_, hv, h⟩ := bind_eq_ok.mp h
      obtain ⟨hnb, hna, hver⟩ := AuthenticBundle.verify_eq_ok.mp (mapErr_eq_ok.mp hv)
      split at h
      · rename_i hty
        cases ok_inj.mp h
        exact ⟨hs₀, hss, hs.symm, ⟨hbox, hsign, hnb, hna, hver⟩, ⟨n, hb⟩, .inl ⟨hty, rfl, rfl⟩⟩
      · rename_i hty
        rw [encodeConfirm_eq _ _ _ _ _ rfl] at h
        obtain ⟨_, _, h⟩ := bind_eq_ok.mp h
        cases ok_inj.mp h
        exact ⟨hs₀, hss, hs.symm, ⟨hbox, hsign, hnb, hna, hver⟩, ⟨n, hb⟩, .inr ⟨hty, _, rfl, rfl⟩⟩
    · simp at h
  · simp at h

end InitState

end Pqsnet.Transport
