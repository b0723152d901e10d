import Pqsnet.Transport.Network
import Pqsnet.Transport.Soundness
import Pqsnet.Transport.BundleRoundTrip

/-! An honest peer that a handshake was completed with took part in it, and saw the same messages. -/

namespace Pqsnet.Transport

open Checked Outcome

variable {C : CryptoAndMem}

/-! The part of a transcript that a signature covers. -/

lemma initEntries_eq {aad aad' m m' : Bytes} {k k' : Option ResumptionKey}
    (h : initEntries aad m k = initEntries aad' m' k') : aad = aad' ∧ m = m' := by
  have h' : initEntries aad m k ++ (replyEntries [] [] ++ []) = initEntries aad' m' k' ++ (replyEntries [] [] ++ []) := by
    rw [h]
  obtain ⟨haad, hm, -⟩ := initEntries_inj h'
  exact ⟨haad, hm⟩

lemma covered_reply (aad m : Bytes) (k : Option ResumptionKey) (ty : UInt8) (ct : Arr Mlkem1024.ciphertextLen)
    (t : Tail) (ss : Bytes) : (transcript aad m k ((ty :: ct.bytes) ++ t.bytes) ss none).dropLast =
      initEntries aad m k ++ [(2, ty :: ct.bytes), (3, ss), (4, t.payloadBox)] := by
  have hl : (ty :: ct.bytes).length = Reply.ephemeralCiphertextEnd := by simp
  rw [transcript, replyEntries, List.take_left' hl, List.drop_left' hl, tailEntries_bytes, List.dropLast_append_of_ne_nil]
  · rfl
  · exact List.cons_ne_nil _ _

lemma covered_confirm (aad m : Bytes) (k : Option ResumptionKey) (r ss : Bytes) (t : Tail) :
    (transcript aad m k r ss (some t.bytes)).dropLast = transcript aad m k r ss none ++ [(6, t.payloadBox)] := by
  rw [transcript, transcript, confirmEntries, confirmEntries, tailEntries_bytes, List.dropLast_append_of_ne_nil,
    List.dropLast_append_of_ne_nil]
  · simp
  · exact List.cons_ne_nil _ _
  · exact List.cons_ne_nil _ _

lemma covered_cons (aad m : Bytes) (k : Option ResumptionKey) (r s : Bytes) (c : Option Bytes) :
    ∃ es, (transcript aad m k r s c).dropLast = (0, aad) :: es ∧ ∀ e ∈ es, e.1 ≠ 0 := by
  obtain ⟨es, he, hes⟩ := transcript_cons aad m k r s c
  have hne : es ≠ [] := by
    rintro rfl
    have hl := congrArg List.length he
    simp only [transcript, replyEntries, tailEntries, List.length_append, List.length_cons, List.length_nil] at hl
    omega
  exact ⟨es.dropLast, by rw [he, List.dropLast_cons_of_ne_nil hne], fun e h => hes e (List.mem_of_mem_dropLast h)⟩

lemma covered_eq_of_binding {inputs : List Bytes} (hc : C.CollisionFree inputs) (hb : C.BindingFree inputs)
    {aad aad' m m' : Bytes} {k k' : Option ResumptionKey} {r r' s s' : Bytes} {c c' : Option Bytes}
    (hi : ∀ x ∈ (chain C).inputs SymmetricState.salted (transcript aad m k r s c), x ∈ inputs)
    (hi' : ∀ x ∈ (chain C).inputs SymmetricState.salted (transcript aad' m' k' r' s' c'), x ∈ inputs)
    (h : binding C (transcript aad m k r s c).dropLast = binding C (transcript aad' m' k' r' s' c').dropLast) :
    (transcript aad m k r s c).dropLast = (transcript aad' m' k' r' s' c').dropLast := by
  have hi := fun x hx => hi x ((chain C).inputs_mono (List.dropLast_prefix _) hx)
  have hi' := fun x hx => hi' x ((chain C).inputs_mono (List.dropLast_prefix _) hx)
  obtain ⟨es, he, hes⟩ := covered_cons aad m k r s c
  obtain ⟨fs, hf, hfs⟩ := covered_cons aad' m' k' r' s' c'
  rw [he] at hi h ⊢
  rw [hf] at hi' h ⊢
  exact HashChain.eq_of_output_eq hc.chain (fun x y hx hy => hb x hx y hy) SymmetricState.salted (fun e => e.1 = 0)
    ⟨rfl, rfl⟩ hes hfs hi hi' h

namespace AuthenticBundle

lemma Obtained.same {b c : AuthenticBundle C} (hb : b.Obtained) (hc : c.Obtained) {x y : Bytes}
    (h : b.publicBytes ++ x = c.publicBytes ++ y) : b.Same c ∧ x = y := by
  obtain ⟨d, ext, sign, k, rfl, hl, -⟩ := hb.layout
  obtain ⟨d', ext', sign', k', rfl, hl', -⟩ := hc.layout
  simp only [publicBytes_ofHead, List.append_assoc] at h
  obtain ⟨hd, hbody⟩ := List.append_inj h (by simp)
  obtain rfl := BundleHead.bytes_inj hd
  obtain ⟨rfl, hrest⟩ := List.append_inj hbody (hl.trans hl'.symm)
  obtain ⟨hsign, rfl⟩ := List.append_inj hrest (by simp)
  obtain rfl := Arr.ext hsign
  exact ⟨⟨rfl, rfl, rfl, rfl⟩, rfl⟩

end AuthenticBundle

lemma SecretBundle.Built.obtained {sk : SecretBundle C} (h : sk.Built) : sk.publicBundle.Obtained := by
  cases h with
  | new _ _ hext h => exact .new hext h

lemma AuthenticBundle.authenticate_payload {sk : SecretBundle C} (hsk : sk.Built) {p : Bytes} {secs : UInt64}
    {alloc : C.BundleAlloc} {kb : AuthenticBundle C}
    (h : authenticate (sk.publicBundle.publicBytes ++ p) secs alloc = .ok kb) :
    kb.Same sk.publicBundle ∧ (sk.publicBundle.publicBytes ++ p).drop kb.publicBytes.length = p := by
  obtain ⟨suffix, hs⟩ := authenticate_front h
  obtain ⟨hsame, rfl⟩ := Obtained.same hsk.obtained (.authenticated h) hs
  refine ⟨⟨hsame.publicBytes.symm, hsame.offlineHash.symm, hsame.bundleHash.symm, hsame.flags.symm⟩, ?_⟩
  rw [hsame.publicBytes, List.drop_left]

namespace SymmetricState

lemma openBox_of_sealTail (hC : C.Correct) {s : SymmetricState C} {a b : UInt8} {sk : SecretBundle C} {p : Bytes} {t u : Tail}
    (ht : (s.sealTail a b sk p).2 = t.bytes) (h : u.payloadBox = t.payloadBox) : (s.openBox a u.payload u.payloadTag).1 = p := by
  obtain ⟨t', ht', hopen, -⟩ := s.exists_sealed hC a b sk p
  obtain rfl := Tail.bytes_inj (ht'.symm.trans ht)
  obtain ⟨hp, htag⟩ := List.append_inj' h (by simp)
  rw [hp, Arr.ext htag, hopen]

end SymmetricState

/-! The two halves of a reply, and of a confirm message. -/

namespace InitState

lemma processReply_payload {self : InitState C} {ty : UInt8} {ct : Arr Mlkem1024.ciphertextLen} {t : Tail}
    {secs : UInt64} {ba : C.BundleAlloc} {ma : C.MessageAlloc} {hc : HandshakeComplete C}
    (h : self.processReply ((ty :: ct.bytes) ++ t.bytes) secs ba ma = .ok hc) {s₀ s : SymmetricState C}
    {ss : Arr Mlkem1024.sharedSecretKeyLen} (hacc : self.ReplyAccepted ty ct t s₀ ss s secs ba hc)
    (hty : ty ≠ Reply.handshakeTypeResume) :
    AuthenticBundle.authenticate (s.openBox 4 t.payload t.payloadTag).1 secs ba = .ok hc.remoteKeyBundle ∧
      hc.recvPayload = (s.openBox 4 t.payload t.payloadTag).1.drop hc.remoteKeyBundle.publicBytes.length ∧
      hc.messageToSend = some (((s.mix 4 t.payloadBox).mix 5 t.signBox).sealTail 6 7 self.secretKeyBundle
        (self.secretKeyBundle.publicBundle.publicBytes ++ self.payload)).2 := by
  rw [processReply_tail, replyTail, hacc.select, ok_bind, hacc.sharedSecret, okOr_some, ok_bind] at h
  simp only [← hacc.state, hacc.authenticated.payloadTag, hacc.authenticated.onlineSignTag, ↓reduceIte, hty] at h
  obtain ⟨⟨b, n⟩, hb, h⟩ := bind_eq_ok.mp h
  obtain ⟨_, _, h⟩ := bind_eq_ok.mp h
  rw [encodeConfirm_eq _ _ _ _ _ rfl] at h
  obtain ⟨_, _, h⟩ := bind_eq_ok.mp h
  cases ok_inj.mp h
  rcases replyBundle_inv hb with ⟨_, hauth, rfl, _⟩ | ⟨hres, _⟩
  · exact ⟨hauth, rfl, rfl⟩
  · exact absurd hres hty

end InitState

namespace ReplyState

lemma processConfirm_payload {self : ReplyState C} {t : Tail} {secs : UInt64} {alloc : C.BundleAlloc}
    {hc : HandshakeComplete C} (h : self.processConfirm t.bytes secs alloc = .ok hc) :
    AuthenticBundle.authenticate (self.symmetric.openBox 6 t.payload t.payloadTag).1 secs alloc = .ok hc.remoteKeyBundle ∧
      hc.recvPayload = (self.symmetric.openBox 6 t.payload t.payloadTag).1.drop hc.remoteKeyBundle.publicBytes.length := by
  rw [processConfirm_tail, confirmTail] at h
  split at h
  · obtain ⟨b, hb, h⟩ := bind_eq_ok.mp h
    split at h
    · simp at h
    split at h
    · simp at h
    split at h
    · obtain ⟨_, _, h⟩ := bind_eq_ok.mp h
      cases ok_inj.mp h
      exact ⟨mapErr_eq_ok.mp hb, rfl⟩
    · simp at h
  · simp at h

end ReplyState

/-! The records of a network. -/

/-- An initiator only opens full handshakes: a resumption is not sent at all. -/
lemma Initiator.Made.full {i : Initiator C} (h : i.Made) : i.resumption = none ∧
    i.state.Started i.aad i.initMessage none ∧ i.state.remoteKeyBundle = none ∧
    i.state.secretKeyBundle = i.party.1 ∧ i.state.payload = i.payload := by
  obtain ⟨seed, alloc, h⟩ := h
  have hs := InitState.initializeMessage_started h
  cases hr : i.resumption with
  | none =>
    rw [hr] at h hs
    cases hm : C.mallocMessage alloc Initialize.ephemeralEncKeyEnd with
    | none =>
      simp only [InitState.initializeMessage, Option.isSome_none, Bool.false_eq_true, ↓reduceIte, hm, ok_inj] at h
      exact absurd h nofun
    | some mem =>
      rw [InitState.initializeMessage_full seed i.aad i.party.1 i.payload hm] at h
      obtain ⟨-, hstate⟩ := Prod.mk.inj (Option.some.inj (ok_inj.mp h))
      exact ⟨rfl, hs, by rw [← hstate], by rw [← hstate], by rw [← hstate]⟩
  | some r =>
    rw [hr] at h
    cases hm : C.mallocMessage alloc (Initialize.payloadStart + i.payload.length + payloadRevStart) with
    | none =>
      simp only [InitState.initializeMessage, Option.isSome_some, ↓reduceIte, hm, ok_inj] at h
      exact absurd h nofun
    | some mem =>
      rw [InitState.initializeMessage_resumption seed i.aad i.party.1 r i.payload hm] at h
      exact absurd h (panic_ne_ok _ _)

lemma Responder.Made.sealed {r : Responder C} (h : r.Made) : ∃ init : Initialized C,
    r.sharedSecret = some init.sharedSecret ∧
    init.symmetric = (chain C).replay SymmetricState.salted
      (initEntries r.aad r.initMessage (r.resumption.map Resumption.key)) ∧
    r.replyMessage = ReplyState.replyBytes init r.party.1 r.payload ∧
    ∀ m state, r.answer = .incomplete m state →
      state.symmetric = (chain C).replay SymmetricState.salted (r.transcript none) := by
  obtain ⟨secs, alloc, h⟩ := h
  obtain ⟨init, ha, hr⟩ := ReplyState.processInitialize_inv h
  obtain ⟨hss, hs⟩ := ha.symmetric
  have hreply : r.replyMessage = ReplyState.replyBytes init r.party.1 r.payload := by
    rw [replyMessage]
    generalize r.answer = answer at hr
    cases hr <;> rfl
  refine ⟨init, hss, hs, hreply, ?_⟩
  intro m state heq
  have hsealed : state.symmetric = (ReplyState.replySealed init r.party.1 r.payload).1 := by
    rw [heq] at hr
    cases hr
    rfl
  rw [hsealed, transcript, hreply, sharedSecret, hss, replay_transcript, ← hs, ReplyState.replyBytes, replay_reply,
    ReplyState.replySealed, replay_sealTail]
  rfl

/-- What an initiator has read by the time it is done. -/
structure InitiatorDone.Opened (d : InitiatorDone C) (ty : UInt8) (ct : Arr Mlkem1024.ciphertextLen) (t : Tail)
    (ss : Arr Mlkem1024.sharedSecretKeyLen) (s : SymmetricState C) : Prop where
  replyMessage : d.replyMessage = (ty :: ct.bytes) ++ t.bytes
  full : ty ≠ Reply.handshakeTypeResume
  sharedSecret : d.sharedSecret = some ss
  state : s = (((chain C).replay SymmetricState.salted (initEntries d.initiator.aad d.initiator.initMessage none)).mix 2
    (ty :: ct.bytes)).mix 3 ss.bytes
  onlineSign : ∃ sign, C.verify d.result.remoteKeyBundle.onlineKey [5] (s.mix 4 t.payloadBox).channelBinding.bytes sign = true
  bundle : ∃ secs alloc, AuthenticBundle.authenticate (s.openBox 4 t.payload t.payloadTag).1 secs alloc =
    .ok d.result.remoteKeyBundle
  recvPayload : d.result.recvPayload =
    (s.openBox 4 t.payload t.payloadTag).1.drop d.result.remoteKeyBundle.publicBytes.length
  messageToSend : d.result.messageToSend = some (((s.mix 4 t.payloadBox).mix 5 t.signBox).sealTail 6 7
    d.initiator.party.1 (d.initiator.party.1.publicBundle.publicBytes ++ d.initiator.payload)).2

namespace InitiatorDone

lemma resumptionKey_none {d : InitiatorDone C} (hi : d.initiator.Made) : d.resumptionKey = none := by
  rw [resumptionKey, hi.full.1]
  exact ite_self _

lemma Made.opened {d : InitiatorDone C} (hd : d.Made) (hi : d.initiator.Made) : ∃ ty ct t ss s, d.Opened ty ct t ss s := by
  obtain ⟨-, hstarted, hremote, hparty, hpayload⟩ := hi.full
  obtain ⟨secs, ba, ma, h⟩ := hd
  obtain ⟨ty, ct, t, s₀, ss, s, hm, hacc⟩ := InitState.processReply_inv h
  have hfull : ty ≠ Reply.handshakeTypeResume := by
    intro hty
    obtain ⟨n, hn⟩ := hacc.bundle
    rcases InitState.replyBundle_inv hn with ⟨hne, _⟩ | ⟨_, hr, _⟩
    · exact hne hty
    · rw [hremote] at hr
      exact absurd hr nofun
  rw [hm] at h
  obtain ⟨hbundle, hrecv, hsend⟩ := InitState.processReply_payload h hacc hfull
  rw [hparty, hpayload] at hsend
  have hs₀ := hstarted.select hacc.select
  rw [ite_self] at hs₀
  refine ⟨ty, ct, t, ss, s, hm, hfull, ?_, by rw [hacc.state, hs₀], ⟨_, hacc.authenticated.onlineSign⟩,
    ⟨secs, ba, hbundle⟩, hrecv, hsend⟩
  rw [sharedSecret, hm, InitState.sharedSecret_eq, hacc.sharedSecret]

lemma Opened.behind {d : InitiatorDone C} (hi : d.initiator.Made) {ty : UInt8} {ct : Arr Mlkem1024.ciphertextLen} {t : Tail}
    {ss : Arr Mlkem1024.sharedSecretKeyLen} {s : SymmetricState C} (h : d.Opened ty ct t ss s) :
    (s.mix 4 t.payloadBox).mix 5 t.signBox = (chain C).replay SymmetricState.salted (d.transcript none) := by
  rw [transcript, resumptionKey_none hi, h.replyMessage, h.sharedSecret, replay_transcript, h.state, replay_tail, ← replay_reply]
  rfl

end InitiatorDone

lemma InitiatorDone.Made.keys {d : InitiatorDone C} (hd : d.Made) (hi : d.initiator.Made) :
    d.result.keys = splitKeys C (d.transcript d.result.messageToSend) (splitStep d.result.messageToSend) := by
  obtain ⟨secs, ba, ma, h⟩ := hd
  obtain ⟨ss, hss, hk, -⟩ := InitState.processReply_keys hi.full.2.1 h
  rw [ite_self] at hk
  rw [transcript, sharedSecret, hss, resumptionKey_none hi]
  exact hk

namespace ResponderDone

lemma Made.keys {d : ResponderDone C} (hd : d.Made) (hr : d.responder.Made) :
    d.result.keys = splitKeys C (d.responder.transcript d.confirmMessage) (splitStep d.confirmMessage) := by
  obtain ⟨secs, alloc, h⟩ := hr
  obtain ⟨ss, hss, hk, -⟩ := ReplyState.processInitialize_keys h hd
  rw [Responder.transcript, Responder.sharedSecret, hss]
  exact hk

lemma Made.confirmed {d : ResponderDone C} (hd : d.Made) {c : Bytes} (hc : d.confirmMessage = some c) :
    ∃ m state secs alloc, d.responder.answer = .incomplete m state ∧ state.processConfirm c secs alloc = .ok d.result := by
  rw [Made, hc] at hd
  generalize d.responder.answer = answer at hd
  cases hd with
  | confirm h => exact ⟨_, _, _, _, rfl, h⟩

end ResponderDone

/-! Agreement. -/

-- A message without the box of its signature.
def unsigned (m : Bytes) : Bytes := m.take (m.length - payloadTagRevStart)

lemma unsigned_tail (front : Bytes) (t : Tail) : unsigned (front ++ t.bytes) = front ++ t.payloadBox := by
  have hl : (front ++ t.bytes).length - payloadTagRevStart = (front ++ t.payloadBox).length := by simp [Tail.bytes]; omega
  rw [unsigned, hl, Tail.bytes, ← List.append_assoc, List.take_left]

/-- The initiator is in the handshake that the responder answered, and read the bundle and the payload it was sent. -/
structure Answers (r : Responder C) (d : InitiatorDone C) : Prop where
  aad : r.aad = d.initiator.aad
  initMessage : r.initMessage = d.initiator.initMessage
  replyMessage : unsigned r.replyMessage = unsigned d.replyMessage
  sharedSecret : r.sharedSecret = d.sharedSecret
  bundle : d.result.remoteKeyBundle.Same r.party.1.publicBundle
  payload : d.result.recvPayload = r.payload

/-- The responder is done with the handshake that the initiator is done with, and each has the bundle and the payload
of the other. The keys are the same if the confirm message came through as it was sent. -/
structure Confirms (e : InitiatorDone C) (d : ResponderDone C) : Prop extends Answers d.responder e where
  wholeReply : d.responder.replyMessage = e.replyMessage
  initiator : d.result.remoteKeyBundle.Same e.initiator.party.1.publicBundle
  recvPayload : d.result.recvPayload = e.initiator.payload
  keys : d.result.keys = e.result.keys ↔ d.confirmMessage = e.result.messageToSend

lemma answers_of_covered (hC : C.Correct) {r : Responder C} (hr : r.Made) {d : InitiatorDone C} (hi : d.initiator.Made)
    (hd : d.Made) (h : (r.transcript none).dropLast = (d.transcript none).dropLast) : Answers r d := by
  obtain ⟨init, hss, hsym, hreply, -⟩ := hr.sealed
  obtain ⟨ty, ct, t, ss, s, hopen⟩ := hd.opened hi
  obtain ⟨u, hu, -⟩ := (ReplyState.replyState init).exists_sealed hC 4 5 r.party.1
    (ReplyState.replyPlaintext init r.party.1 r.payload)
  have hreply' : r.replyMessage = (init.handshakeType :: init.ciphertext.bytes) ++ u.bytes := by
    rw [hreply, ReplyState.replyBytes, ReplyState.replySealed, hu]
  rw [Responder.transcript, InitiatorDone.transcript, hreply', hopen.replyMessage, hss, hopen.sharedSecret,
    InitiatorDone.resumptionKey_none hi, covered_reply, covered_reply] at h
  obtain ⟨hinit, hrest⟩ := List.append_inj' h rfl
  simp only [List.cons.injEq, Prod.mk.injEq, true_and, and_true] at hrest
  obtain ⟨⟨hty, hct⟩, hsecret, hbox⟩ := hrest
  obtain ⟨haad, hm⟩ := initEntries_eq hinit
  have hsecret' : init.sharedSecret = ss := Arr.ext hsecret
  have hs : ReplyState.replyState init = s := by
    rw [hopen.state, ReplyState.replyState, hsym, hinit, hty, hct, hsecret']
  have hplain : (s.openBox 4 t.payload t.payloadTag).1 = r.party.1.publicBundle.publicBytes ++ r.payload := by
    have hp := SymmetricState.openBox_of_sealTail hC hu hbox.symm
    rw [hs, ReplyState.replyPlaintext, hty, if_neg hopen.full] at hp
    exact hp
  obtain ⟨secs, alloc, hbundle⟩ := hopen.bundle
  have hrecv := hopen.recvPayload
  rw [hplain] at hbundle hrecv
  obtain ⟨hsame, hpayload⟩ := AuthenticBundle.authenticate_payload r.party.2 hbundle
  refine ⟨haad, hm, ?_, by rw [hss, hopen.sharedSecret, hsecret'], hsame, hrecv.trans hpayload⟩
  rw [hreply', hopen.replyMessage, unsigned_tail, unsigned_tail, hty, hct, hbox]

lemma confirms_of_covered (hC : C.Correct) {e : InitiatorDone C} (hi : e.initiator.Made) (he : e.Made)
    {d : ResponderDone C} (hr : d.responder.Made) (hd : d.Made) {c m : Bytes} (hc : d.confirmMessage = some c)
    (hm : e.result.messageToSend = some m)
    (h : (d.responder.transcript (some c)).dropLast = (e.transcript (some m)).dropLast)
    (hfree : C.CollisionFree (d.hashed ++ e.hashed)) : Confirms e d := by
  obtain ⟨init, -, -, -, hstate⟩ := hr.sealed
  obtain ⟨ty, ct, t, ss, s, hopen⟩ := he.opened hi
  obtain ⟨m', state, secs, alloc, hanswer, hconfirm⟩ := hd.confirmed hc
  obtain ⟨u, rfl, hacc⟩ := ReplyState.processConfirm_inv hconfirm
  obtain ⟨v, hv, -⟩ := ((s.mix 4 t.payloadBox).mix 5 t.signBox).exists_sealed hC 6 7 e.initiator.party.1
    (e.initiator.party.1.publicBundle.publicBytes ++ e.initiator.payload)
  obtain rfl : m = v.bytes := by
    rw [hopen.messageToSend, hv] at hm
    exact (Option.some.inj hm).symm
  rw [Responder.transcript, InitiatorDone.transcript, covered_confirm, covered_confirm] at h
  obtain ⟨htrans, hboxes⟩ := List.append_inj' h rfl
  have hbox : u.payloadBox = v.payloadBox := by simpa using hboxes
  obtain ⟨hinit, hrest⟩ := List.append_inj' htrans (by simp [replyEntries, tailEntries])
  obtain ⟨hwhole, -, -⟩ := replyEntries_inj hrest
  have hanswers := answers_of_covered hC hr hi he (congrArg List.dropLast htrans)
  -- both are in the same state by the time the confirm message is sealed, and opened
  have hs : state.symmetric = (s.mix 4 t.payloadBox).mix 5 t.signBox := by
    rw [hstate _ _ hanswer, hopen.behind hi]
    exact congrArg _ htrans
  have hplain : (state.symmetric.openBox 6 u.payload u.payloadTag).1 =
      e.initiator.party.1.publicBundle.publicBytes ++ e.initiator.payload := by
    rw [hs]
    exact SymmetricState.openBox_of_sealTail hC hv hbox
  obtain ⟨hbundle, hrecv⟩ := ReplyState.processConfirm_payload hconfirm
  rw [hplain] at hbundle hrecv
  obtain ⟨hsame, hpayload⟩ := AuthenticBundle.authenticate_payload e.initiator.party.2 hbundle
  refine ⟨hanswers, hwhole, hsame, hrecv.trans hpayload, ?_⟩
  rw [hd.keys hr, he.keys hi]
  constructor
  · intro hk
    exact (messages_eq_of_keys hfree hk).2.2.2.2
  · intro hsend
    have hmore := congrArg (· ++ confirmEntries e.result.messageToSend) htrans
    simp only [transcript, confirmEntries, List.append_nil, List.append_assoc] at hmore
    rw [hsend, Responder.transcript, InitiatorDone.transcript, transcript, transcript]
    exact congrArg (splitKeys C · _) hmore

namespace Network

variable {net : Network C}

lemma Ok.signed_cases (hnet : net.Ok) {s : Signed C} (hs : s ∈ net.signed) :
    (∃ r ∈ net.responders, s = r.signed) ∨
    ∃ d ∈ net.initiatorsDone, ∃ m, d.result.messageToSend = some m ∧
      s = ⟨d.initiator.party.1.onlineSecretKey, 7, (d.transcript (some m)).dropLast⟩ := by
  simp only [signed, List.mem_append, List.mem_flatMap, List.mem_map] at hs
  rcases hs with (⟨i, hi, hs⟩ | ⟨r, hr, rfl⟩) | ⟨d, hd, hs⟩
  · rw [Initiator.signed, (hnet.initiators i hi).full.1] at hs
    exact absurd hs List.not_mem_nil
  · exact .inl ⟨r, hr, rfl⟩
  · rw [InitiatorDone.signed] at hs
    cases hm : d.result.messageToSend with
    | none =>
      rw [hm] at hs
      exact absurd hs List.not_mem_nil
    | some m =>
      rw [hm] at hs
      exact .inr ⟨d, hd, m, hm, List.mem_singleton.mp hs⟩

lemma inputs_responder {r : Responder C} (hr : r ∈ net.responders) :
    ∀ x ∈ (chain C).inputs SymmetricState.salted (r.transcript none), x ∈ net.hashed := by
  intro x hx
  simp only [hashed, List.mem_append, List.mem_flatMap]
  exact .inl (.inl ⟨r, hr, hx⟩)

lemma hashed_initiatorDone {d : InitiatorDone C} (hd : d ∈ net.initiatorsDone) : ∀ x ∈ d.hashed, x ∈ net.hashed := by
  intro x hx
  simp only [hashed, List.mem_append, List.mem_flatMap]
  exact .inl (.inr ⟨d, hd, hx⟩)

lemma hashed_responderDone {d : ResponderDone C} (hd : d ∈ net.respondersDone) : ∀ x ∈ d.hashed, x ∈ net.hashed := by
  intro x hx
  simp only [hashed, List.mem_append, List.mem_flatMap]
  exact .inr ⟨d, hd, hx⟩

-- The transcript up to the reply is the front of every longer one.
lemma inputs_reply {d : InitiatorDone C} (hd : d ∈ net.initiatorsDone) :
    ∀ x ∈ (chain C).inputs SymmetricState.salted (d.transcript none), x ∈ net.hashed := by
  intro x hx
  apply hashed_initiatorDone hd
  apply (chain C).inputs_mono _ hx
  rw [InitiatorDone.transcript, InitiatorDone.transcript, transcript, transcript, List.append_assoc, ← List.append_assoc]
  exact ⟨confirmEntries d.result.messageToSend ++ [(splitStep d.result.messageToSend, [])], by simp [confirmEntries]⟩

lemma Ok.answered (hC : C.Correct) (hnet : net.Ok) {owner : C.PublicKey → Option C.SecretKey} (h : net.Trusted owner)
    {d : InitiatorDone C} (hd : d ∈ net.initiatorsDone) {sk : C.SecretKey}
    (hsk : owner d.result.remoteKeyBundle.onlineKey = some sk) :
    ∃ r ∈ net.responders, r.party.1.onlineSecretKey = sk ∧ Answers r d := by
  obtain ⟨hi, hmade⟩ := hnet.initiatorsDone d hd
  have hv : d.verified ∈ net.verified := List.mem_append_left _ (List.mem_map_of_mem hd)
  obtain ⟨s, hs, hkey, hstep, hbind⟩ := h.unforged _ hv sk hsk
  rcases hnet.signed_cases hs with ⟨r, hr, rfl⟩ | ⟨e, -, m, -, rfl⟩
  · refine ⟨r, hr, hkey, answers_of_covered hC (hnet.responders r hr) (hnet.initiators _ hi) hmade ?_⟩
    exact covered_eq_of_binding h.collisionFree h.bindingFree (inputs_responder hr) (inputs_reply hd) hbind
  · exact absurd (show (7 : UInt8) = 5 from hstep) (by decide)

lemma Ok.confirmed (hC : C.Correct) (hnet : net.Ok) {owner : C.PublicKey → Option C.SecretKey} (h : net.Trusted owner)
    {d : ResponderDone C} (hd : d ∈ net.respondersDone) {sk : C.SecretKey}
    (hsk : owner d.result.remoteKeyBundle.onlineKey = some sk) :
    ∃ e ∈ net.initiatorsDone, e.initiator.party.1.onlineSecretKey = sk ∧ Confirms e d := by
  obtain ⟨hr, hmade⟩ := hnet.respondersDone d hd
  have hv : d.verified ∈ net.verified := List.mem_append_right _ (List.mem_map_of_mem hd)
  cases hc : d.confirmMessage with
  | none =>
    -- a resumption would have been signed at step 12, where no honest party signs
    rw [ResponderDone.verified, hc] at hv
    obtain ⟨s, hs, -, hstep, -⟩ := h.unforged _ hv sk hsk
    rcases hnet.signed_cases hs with ⟨r, -, rfl⟩ | ⟨e, -, m, -, rfl⟩
    · exact absurd (show (5 : UInt8) = 12 from hstep) (by decide)
    · exact absurd (show (7 : UInt8) = 12 from hstep) (by decide)
  | some c =>
    rw [ResponderDone.verified, hc] at hv
    obtain ⟨s, hs, hkey, hstep, hbind⟩ := h.unforged _ hv sk hsk
    rcases hnet.signed_cases hs with ⟨r, -, rfl⟩ | ⟨e, he, m, hm, rfl⟩
    · exact absurd (show (5 : UInt8) = 7 from hstep) (by decide)
    · obtain ⟨hi, hemade⟩ := hnet.initiatorsDone e he
      have hfree : C.CollisionFree (d.hashed ++ e.hashed) := by
        have hsub : ∀ x ∈ d.hashed ++ e.hashed, x ∈ net.hashed := fun x hx =>
          (List.mem_append.mp hx).elim (hashed_responderDone hd x) (hashed_initiatorDone he x)
        exact fun x hx y hy => h.collisionFree x (hsub x hx) y (hsub y hy)
      have hpre : ∀ (es : List Entry) (a : UInt8) (x), x ∈ (chain C).inputs SymmetricState.salted es →
          x ∈ Transport.hashed C es a := fun es a x hx => (chain C).inputs_mono (List.prefix_append _ _) hx
      refine ⟨e, he, hkey, confirms_of_covered hC (hnet.initiators _ hi) hemade (hnet.responders _ hr) hmade hc hm ?_ hfree⟩
      refine (covered_eq_of_binding h.collisionFree h.bindingFree ?_ ?_ hbind).symm
      · intro x hx
        apply hashed_initiatorDone he
        rw [InitiatorDone.hashed, hm]
        exact hpre _ _ x hx
      · intro x hx
        apply hashed_responderDone hd
        rw [ResponderDone.hashed, hc]
        exact hpre _ _ x hx

end Network

/-! The records of signatures, against the calls that make and check them. -/

def Verified.Accepted (v : Verified C) : Prop :=
  ∃ sign, C.verify v.key [v.stepNo] (binding C v.entries).bytes sign = true

namespace InitiatorDone

variable {d : InitiatorDone C} (hd : d.Made) (hi : d.initiator.Made)

include hd hi

end InitiatorDone

namespace ResponderDone

variable {d : ResponderDone C} (hd : d.Made) (hr : d.responder.Made)

include hd hr

end ResponderDone

namespace Network

/-- What the parties handed to the network. -/
def sent (net : Network C) : List Bytes :=
  net.initiators.map Initiator.initMessage ++ net.responders.map Responder.replyMessage ++
    net.initiatorsDone.flatMap fun d => d.result.messageToSend.toList

/-- A full handshake of two parties, with what each message is and what each call returns. -/
structure Delivered (p q : Party C) (i : Initiator C) (r : Responder C) (d : InitiatorDone C) (e : ResponderDone C) : Prop where
  initiator : i.party = p ∧ d.initiator = i
  responder : r.party = q ∧ e.responder = r
  keys : d.result.keys = e.result.keys
  bundle : d.result.remoteKeyBundle.Same q.1.publicBundle ∧ e.result.remoteKeyBundle.Same p.1.publicBundle
  payload : d.result.recvPayload = r.payload ∧ e.result.recvPayload = i.payload
  transcript : ∀ c, r.transcript c = d.transcript c
  confirm : ∃ m, d.result.messageToSend = some m ∧ e.confirmMessage = some m ∧
    (d.transcript (some m) ++ [(8, [])]).map Prod.fst = [0, 1, 2, 3, 4, 5, 6, 7, 8]
  initLength : i.initMessage.length = Mlkem1024.encapsulationKeyLen
  replyLength : d.replyMessage.length = Reply.payloadStart + (q.1.publicBundle.publicBytes ++ r.payload).length + payloadRevStart
  confirmLength : ∀ m ∈ e.confirmMessage, m.length = (p.1.publicBundle.publicBytes ++ i.payload).length + payloadRevStart

section Delivered

variable {p q : Party C} {seed₁ seed₂ : C.Seed} {aad payload₁ payload₂ m₁ m₂ m₃ : Bytes} {init : InitState C}
  {reply : ReplyState C} {secs₁ secs₂ secs₃ : UInt64} {ma₁ ma₂ ma₃ : C.MessageAlloc} {ba₁ ba₂ : C.BundleAlloc}
  {hc₁ hc₂ : HandshakeComplete C}

lemma run_full
    (hinit : (InitState.initializeMessage seed₁ aad p.1 none payload₁ ma₁ : Outcome Empty _) = .ok (some (m₁, init)))
    (hreply : ReplyState.processInitialize seed₂ aad m₁ q.1 none secs₁ ma₂ (fun _ => payload₂) = .ok (.incomplete m₂ reply))
    (hprocess : init.processReply m₂ secs₂ ba₁ ma₃ = .ok hc₁) (hconfirm : reply.processConfirm m₃ secs₃ ba₂ = .ok hc₂) :
    let i : Initiator C := ⟨p, aad, none, payload₁, m₁, init⟩
    let r : Responder C := ⟨q, seed₂, aad, m₁, none, payload₂, .incomplete m₂ reply⟩
    run [.start p seed₁ aad none payload₁ ma₁, .respond q seed₂ aad m₁ none secs₁ ma₂ payload₂, .reply 0 m₂ secs₂ ba₁ ma₃,
      .confirm 0 m₃ secs₃ ba₂] = ⟨[i], [r], [⟨i, m₂, hc₁⟩], [⟨r, some m₃, hc₂⟩]⟩ := by
  simp only [run, List.foldl_cons, List.foldl_nil, step, hinit, hreply, empty, addInitiator, addResponder, List.nil_append,
    List.getElem?_cons_zero, hprocess, addInitiatorDone, hconfirm, addResponderDone]

variable (seed₁ seed₂ aad payload₁ payload₂ secs₁ ma₁ ma₂ ma₃ ba₁ ba₂)

lemma exists_delivered (hC : C.Correct) (hq : q.1.publicBundle.ValidAt secs₂) (hp : p.1.publicBundle.ValidAt secs₃) :
    ∃ (m₁ m₂ m₃ : Bytes) (init : InitState C) (reply : ReplyState C) (hc₁ hc₂ : HandshakeComplete C),
      (InitState.initializeMessage seed₁ aad p.1 none payload₁ ma₁ : Outcome Empty _) = .ok (some (m₁, init)) ∧
      ReplyState.processInitialize seed₂ aad m₁ q.1 none secs₁ ma₂ (fun _ => payload₂) = .ok (.incomplete m₂ reply) ∧
      init.processReply m₂ secs₂ ba₁ ma₃ = .ok hc₁ ∧ reply.processConfirm m₃ secs₃ ba₂ = .ok hc₂ ∧
      Delivered p q ⟨p, aad, none, payload₁, m₁, init⟩ ⟨q, seed₂, aad, m₁, none, payload₂, .incomplete m₂ reply⟩
        ⟨⟨p, aad, none, payload₁, m₁, init⟩, m₂, hc₁⟩
        ⟨⟨q, seed₂, aad, m₁, none, payload₂, .incomplete m₂ reply⟩, some m₃, hc₂⟩ := by
  obtain ⟨ss, ct, kb, kb', hkb, hkb', henc, hdec, hinit, hreply, hprocess, hconfirm⟩ := full_handshake_steps (ε := Empty)
    hC p.2 q.2 hq hp secs₁ seed₁ seed₂ aad payload₁ (fun _ => payload₂) ma₁ ma₂ ma₃ ba₁ ba₂
  refine ⟨_, _, _, _, _, _, _, hinit, hreply, hprocess, hconfirm, ⟨rfl, rfl⟩, ⟨rfl, rfl⟩, rfl, ⟨hkb, hkb'⟩, ⟨rfl, rfl⟩, ?_,
    ⟨_, rfl, rfl, ?_⟩, ?_, ?_, ?_⟩
  · intro c
    have hs := ReplyState.sharedSecret_eq seed₂ (C.generate seed₁).1 []
    rw [List.append_nil, henc] at hs
    rw [Responder.transcript, InitiatorDone.transcript, Responder.sharedSecret, InitiatorDone.sharedSecret, hs,
      ReplyState.replyBytes, InitState.sharedSecret_eq, hdec]
    simp only [InitiatorDone.resumptionKey, Option.map_none, ite_self]
    rfl
  · have hl : (C.generate seed₁).1.bytes.length < Initialize.resumptionTokenEnd := by simp
    rw [InitiatorDone.transcript, transcript, initEntries_full _ _ hl]
    rfl
  · simp
  · rw [ReplyState.replyBytes, ReplyState.replySealed, List.length_append, SymmetricState.sealTail_length,
      ReplyState.replyPlaintext, if_neg Reply.full_ne_resume]
    simp
    omega
  · intro m hm
    rw [← Option.some.inj hm]
    exact SymmetricState.sealTail_length ..

end Delivered

end Network

namespace plain

lemma step_eq_of_binding {x y : Bytes}
    (h : ((chain (plain stepXof)).hash x).channelBinding = ((chain (plain stepXof)).hash y).channelBinding) :
    x.getD 64 0 = y.getD 64 0 := by
  have hb : ((List.replicate 160 (x.getD 64 0)).take 160).drop 96 = ((List.replicate 160 (y.getD 64 0)).take 160).drop 96 :=
    congrArg Arr.bytes h
  simp only [List.take_replicate, List.drop_replicate] at hb
  exact (List.replicate_inj.mp hb).2.resolve_left (by decide)

lemma trusted_of_delivered {p q : Party (plain stepXof)} {i : Initiator (plain stepXof)} {r : Responder (plain stepXof)}
    {d : InitiatorDone (plain stepXof)} {e : ResponderDone (plain stepXof)} (h : Network.Delivered p q i r d e) :
    (⟨[i], [r], [d], [e]⟩ : Network (plain stepXof)).Trusted fun _ => some () := by
  obtain ⟨m, hm, hc, hsteps⟩ := h.confirm
  obtain ⟨-, rfl⟩ := h.responder
  have htrans := h.transcript
  have hsub : ∀ x ∈ (⟨[i], [e.responder], [d], [e]⟩ : Network (plain stepXof)).hashed,
      x ∈ Transport.hashed (plain stepXof) (d.transcript (some m)) 8 := by
    intro x hx
    simp only [Network.hashed, List.flatMap_cons, List.flatMap_nil, List.append_nil, List.mem_append, Responder.hashed,
      InitiatorDone.hashed, ResponderDone.hashed, hc, hm, htrans] at hx
    rcases hx with (hx | hx) | hx
    · apply (chain _).inputs_mono _ hx
      exact ⟨confirmEntries (some m) ++ [(8, [])], by simp [InitiatorDone.transcript, transcript, confirmEntries]⟩
    · exact hx
    · exact hx
  have hstep : ∀ x ∈ (⟨[i], [e.responder], [d], [e]⟩ : Network (plain stepXof)).hashed,
      ∀ y ∈ (⟨[i], [e.responder], [d], [e]⟩ : Network (plain stepXof)).hashed, x.getD 64 0 = y.getD 64 0 → x = y :=
    fun x hx y hy => inputs_eq_of_step (by rw [hsteps]; decide) (hsub x hx) (hsub y hy)
  refine ⟨?_, ?_, fun x hx y hy h => hstep x hx y hy (step_eq_of_binding h)⟩
  · intro v hv sk hsk
    simp only [Network.verified, List.map_cons, List.map_nil, List.mem_append, List.mem_singleton] at hv
    rcases hv with rfl | rfl
    · refine ⟨e.responder.signed, by simp [Network.signed], rfl, rfl, ?_⟩
      rw [Responder.signed, htrans]
      rfl
    · refine ⟨⟨d.initiator.party.1.onlineSecretKey, 7, (d.transcript (some m)).dropLast⟩, ?_, rfl, ?_, ?_⟩
      · simp [Network.signed, InitiatorDone.signed, hm]
      · rw [ResponderDone.verified, hc]
      · simp only [ResponderDone.verified, hc, htrans]
  · have hfree : (plain stepXof).CollisionFree (hashed (plain stepXof) (d.transcript (some m)) 8) :=
      collisionFree_of_nodup (by rw [hsteps]; decide)
    exact fun x hx y hy => hfree x (hsub x hx) y (hsub y hy)

abbrev party : Party (plain stepXof) := ⟨bundle stepXof, bundle_built _⟩

end plain

namespace Network

end Network

end Pqsnet.Transport
