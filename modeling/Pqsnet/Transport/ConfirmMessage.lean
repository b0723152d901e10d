import Pqsnet.Transport.Initiator
import Pqsnet.Transport.Responder
import Pqsnet.Transport.Boxes
import Pqsnet.Transport.BundleAuthentication

/-! The confirm message at the level of its fields: what the responder does on it, and what the
initiator writes into it. -/

namespace Pqsnet.Transport

open Checked Outcome

variable {C : CryptoAndMem}

namespace ReplyState

def confirmTail (self : ReplyState C) (t : Tail) (secs : UInt64) (alloc : C.BundleAlloc) :
    Outcome Error (HandshakeComplete C) :=
  let box := self.symmetric.openBox 6 t.payload t.payloadTag
  let s := self.symmetric.mix 6 t.payloadBox
  let sign := s.openSign 7 t
  if box.2 then do
    let b ← mapErr AuthError.toError (AuthenticBundle.authenticate box.1 secs alloc)
    if self.remoteOfflineHash.any (fun h => !b.offlineEqRaw h) then err .inauthentic
    else if self.rejectIfRemoteHasReliableStorage ∧ b.flags &&& KeyBundle.flagReliableStorage > 0 then
      err .inauthentic
    else if sign.2 then do
      mapErr AuthError.toError (b.verify [7] s.channelBinding.bytes sign.1 secs)
      .ok ⟨none, (s.mix 7 t.signBox).split 8, b, box.1.drop b.publicBytes.length⟩
    else err .inauthentic
  else err .inauthentic

lemma processConfirm_tail (self : ReplyState C) (t : Tail) (secs : UInt64) (alloc : C.BundleAlloc) :
    self.processConfirm t.bytes secs alloc = self.confirmTail t secs alloc := by
  have hl : ¬ (t.bytes.length < Confirm.payloadStart + payloadRevStart) := by simp
  have hd := self.symmetric.decrypt_tail 6 [] t (e := t.bytes.length - payloadTagRevStart) (by simp)
  simp only [List.nil_append, List.length_nil] at hd
  rw [processConfirm, if_neg hl]
  simp only [confirmTail, Confirm.payloadStart,
    sub_ok (show payloadRevStart ≤ t.bytes.length by simp),
    sub_ok (show payloadTagRevStart ≤ t.bytes.length by simp),
    sub_ok (show onlineSignRevEnd ≤ t.bytes.length by simp),
    sub_ok (show onlineSignTagRevStart ≤ t.bytes.length by simp), ok_bind, hd]
  by_cases ho : (self.symmetric.openBox 6 t.payload t.payloadTag).2
  · have hpl := self.symmetric.openBox_length 6 t.payload t.payloadTag
    generalize (self.symmetric.openBox 6 t.payload t.payloadTag).1 = p at hpl
    have hs := Tail.slice_payload (ε := Error) [] (t.withPayload p) (i := 0) (k := 0)
      (e := t.bytes.length - payloadRevStart) (by simp) (by simp) (by simp [Tail.withPayload, hpl])
    simp only [List.nil_append, List.drop_zero] at hs
    simp only [ho, ↓reduceIte, ok_bind, hs]
    cases hb : AuthenticBundle.authenticate (t.withPayload p).payload secs alloc with
    | error e =>
      rw [show AuthenticBundle.authenticate p secs alloc = .error e from hb]
      simp only [mapErr_error, error_bind]
    | ok b =>
      rw [show AuthenticBundle.authenticate p secs alloc = .ok b from hb]
      obtain ⟨suffix, hsuf⟩ := AuthenticBundle.authenticate_front hb
      have hv := (self.symmetric.mix 6 t.payloadBox).verify_tail 7 [] t b secs p
        (i := t.bytes.length - onlineSignRevEnd) (e := t.bytes.length - onlineSignTagRevStart)
        (by simp [hpl]) (by simp [Tail.withPayload, hpl])
      simp only [List.nil_append] at hv
      simp only [mapErr_ok, ok_bind]
      split
      · rfl
      split
      · rfl
      rw [hv]
      split
      · rw [mapErr_bind]
        cases b.verify [7] (self.symmetric.mix 6 t.payloadBox).channelBinding.bytes
            ((self.symmetric.mix 6 t.payloadBox).openSign 7 t).1 secs with
        | error e => simp only [mapErr_error, error_bind]
        | ok _ =>
          have hr := Tail.slice_payload (ε := Error) []
            (t.opened p ((self.symmetric.mix 6 t.payloadBox).openSign 7 t).1)
            (i := 0 + b.publicBytes.length) (k := b.publicBytes.length) (e := t.bytes.length - payloadRevStart)
            (by rw [show (t.opened p _).payload = p from rfl, show p = _ from hsuf]; simp) (by simp)
            (by simp [Tail.opened, hpl])
          simp only [List.nil_append] at hr
          simp only [ok_bind, mapErr_ok, hr]
          rfl
      · rfl
  · simp only [ho, Bool.false_eq_true, ↓reduceIte, err_bind]

end ReplyState

namespace InitState

lemma encodeConfirm_eq (self : InitState C) (s : SymmetricState C) (b : AuthenticBundle C)
    (recvPayload : Bytes) (alloc : C.MessageAlloc) {p : Bytes}
    (hp : p = self.secretKeyBundle.publicBundle.publicBytes ++ self.payload) :
    self.encodeConfirm s b recvPayload alloc =
      okOr (C.mallocMessage alloc (p.length + payloadRevStart)) .allocFailure >>= fun _ =>
        .ok ⟨some (s.sealTail 6 7 self.secretKeyBundle p).2,
          (s.sealTail 6 7 self.secretKeyBundle p).1.split 8, b, recvPayload⟩ := by
  simp only [encodeConfirm]
  generalize self.secretKeyBundle.publicBundle.publicBytes = k at hp ⊢
  have hn : Confirm.payloadStart + k.length + self.payload.length + Aes256.tagLen + onlineSignLen +
      Aes256.tagLen = p.length + payloadRevStart := by
    simp [hp]
  rw [hn]
  cases hm : C.mallocMessage alloc (p.length + payloadRevStart) with
  | none => simp only [okOr_none, err_bind]
  | some mem =>
    have hl := C.mallocMessage_length _ _ _ hm
    rw [hp] at hl
    simp only [List.length_append] at hl
    simp only [okOr_some, ok_bind]
    rw [writeSlice_next [] mem k (by simp) (by simp) (by simp) (by omega), ok_bind,
      writeSlice_next ([] ++ k) _ self.payload rfl (by simp) (by simp) (by simp; omega), ok_bind]
    obtain ⟨pad, old, q, hr⟩ := exists_pads
      (b := ((mem.drop k.length).drop self.payload.length)) (by simp [hl])
    rw [hr, List.nil_append, ← hp]
    have he := s.encrypt_tail (ε := Error) 6 [] p (old.bytes ++ q.bytes) pad.size
      (e := Confirm.payloadStart + k.length + self.payload.length + Aes256.tagLen) (by simp [hp])
    simp only [List.nil_append, List.length_nil] at he
    rw [Confirm.payloadStart] at he ⊢
    rw [he, ok_bind, SymmetricState.sign_tail _ 7 _ _ old.size q.size (by simp [hp]) (by simp [hp]),
      ok_bind]
    rfl

end InitState

end Pqsnet.Transport
