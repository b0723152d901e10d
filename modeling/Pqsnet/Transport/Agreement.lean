import Pqsnet.Transport.Transcript
import Pqsnet.Transport.Completeness

/-! Two runs that end with the same keys saw the same messages. -/

namespace Pqsnet.Transport

open Checked Outcome

variable {C : CryptoAndMem}

def secretBytes {n : ℕ} (o : Option (Arr n)) : Bytes := o.elim [] Arr.bytes

lemma secretBytes_inj {n : ℕ} {a b : Option (Arr n)} (ha : a.isSome) (hb : b.isSome)
    (h : secretBytes a = secretBytes b) : a = b := by
  obtain ⟨a, rfl⟩ := Option.isSome_iff_exists.mp ha
  obtain ⟨b, rfl⟩ := Option.isSome_iff_exists.mp hb
  exact congrArg some (Arr.ext h)

namespace InitState

/-- The symmetric states after an initialize message that was sent under the given resumption key. -/
structure Started (init : InitState C) (aad initMessage : Bytes) (key : Option ResumptionKey) : Prop where
  symmetric : init.symmetric = (chain C).replay SymmetricState.salted (initEntries aad initMessage key)
  fallback : ∀ s, init.fallback = some s →
    s = (chain C).replay SymmetricState.salted (initEntries aad initMessage none)

lemma initializeMessage_started {ε : Type} {seed : C.Seed} {aad : Bytes} {sk : SecretBundle C}
    {resumption : Option (Resumption C)} {payload : Bytes} {alloc : C.MessageAlloc} {m : Bytes}
    {init : InitState C}
    (h : (initializeMessage seed aad sk resumption payload alloc : Outcome ε _) = .ok (some (m, init))) :
    init.Started aad m (resumption.map Resumption.key) := by
  cases resumption with
  | none =>
    cases hm : C.mallocMessage alloc Initialize.ephemeralEncKeyEnd with
    | none =>
      simp only [initializeMessage, Option.isSome_none, Bool.false_eq_true, ↓reduceIte, hm, ok_inj] at h
      exact absurd h nofun
    | some mem =>
      rw [initializeMessage_full seed aad sk payload hm] at h
      cases h
      refine ⟨?_, nofun⟩
      have hl : (C.generate seed).1.bytes.length < Initialize.resumptionTokenEnd := by simp
      rw [initEntries_full aad _ hl]
      simp only [SymmetricState.new, mix_eq]
      rfl
  | some r =>
    -- A resumption never gets this far, whatever memory is there.
    cases hm : C.mallocMessage alloc (Initialize.payloadStart + payload.length + payloadRevStart) with
    | none =>
      simp only [initializeMessage, Option.isSome_some, ↓reduceIte, hm, ok_inj] at h
      exact absurd h nofun
    | some mem =>
      rw [initializeMessage_resumption seed aad sk r payload hm] at h
      exact absurd h (panic_ne_ok _ _)

lemma Started.select {self : InitState C} {aad m : Bytes} {key : Option ResumptionKey}
    (h : self.Started aad m key) {ty : UInt8} {s : SymmetricState C} (hs : self.selectSymmetric ty = .ok s) :
    s = (chain C).replay SymmetricState.salted
      (initEntries aad m (if ty = Reply.handshakeTypeFallback then none else key)) := by
  rw [selectSymmetric] at hs
  split at hs
  · simp at hs
  split at hs
  · rename_i hty
    rw [if_pos hty]
    exact h.fallback s (okOr_eq_ok.mp hs)
  · rename_i hty
    rw [if_neg hty, ← h.symmetric]
    exact (ok_inj.mp hs).symm

def sharedSecret (self : InitState C) (replyMessage : Bytes) : Option (Arr Mlkem1024.sharedSecretKeyLen) :=
  (Arr.ofBytes _ ((replyMessage.drop Reply.ephemeralCiphertextStart).take Mlkem1024.ciphertextLen)).bind
    (C.decapsulate self.decapsulationKey)

lemma sharedSecret_eq (self : InitState C) (ty : UInt8) (ct : Arr Mlkem1024.ciphertextLen) (rest : Bytes) :
    self.sharedSecret ((ty :: ct.bytes) ++ rest) = C.decapsulate self.decapsulationKey ct := by
  have ht : ((ty :: ct.bytes ++ rest).drop Reply.ephemeralCiphertextStart).take Mlkem1024.ciphertextLen =
      ct.bytes := List.take_left' ct.size
  rw [sharedSecret, ht, Arr.ofBytes_bytes, Option.bind_some]

lemma processReply_keys {self : InitState C} {aad m : Bytes} {key : Option ResumptionKey}
    (hself : self.Started aad m key) {replyMessage : Bytes} {secs : UInt64} {ba : C.BundleAlloc}
    {ma : C.MessageAlloc} {hc : HandshakeComplete C} (h : self.processReply replyMessage secs ba ma = .ok hc) :
    ∃ ss, self.sharedSecret replyMessage = some ss ∧
      hc.keys = splitKeys C (transcript aad m
        (if replyMessage.head? = some Reply.handshakeTypeFallback then none else key) replyMessage ss.bytes
        hc.messageToSend) (splitStep hc.messageToSend) ∧
      (replyMessage.head? = some Reply.handshakeTypeResume ↔ hc.messageToSend = none) := by
  obtain ⟨ty, ct, t, s₀, ss, s, rfl, hacc⟩ := processReply_inv h
  refine ⟨ss, by rw [sharedSecret_eq, hacc.sharedSecret], ?_⟩
  have hs₀ := hself.select hacc.select
  have hty : ((ty :: ct.bytes) ++ t.bytes).head? = some ty := rfl
  have hs : (s.mix 4 t.payloadBox).mix 5 t.signBox = (chain C).replay s₀
      (replyEntries ((ty :: ct.bytes) ++ t.bytes) ss.bytes) := by
    rw [replay_reply, hacc.state, replay_tail]
  simp only [hty, Option.some.injEq]
  rcases hacc.keys with ⟨hres, hm, hk⟩ | ⟨hres, p, hm, hk⟩
  · refine ⟨?_, by simp [hm, hres]⟩
    rw [hk, hm, hs, hs₀, splitKeys, replay_transcript]
    rfl
  · refine ⟨?_, by simp [hm, hres]⟩
    rw [hk, hm, replay_sealTail, hs, hs₀, splitKeys, replay_transcript]
    rfl

end InitState

namespace ReplyState

def sharedSecret (seed : C.Seed) (initMessage : Bytes) : Option (Arr Mlkem1024.sharedSecretKeyLen) :=
  ((Arr.ofBytes _ (initMessage.take Mlkem1024.encapsulationKeyLen)).bind (C.encapsulate seed)).map Prod.fst

lemma sharedSecret_eq (seed : C.Seed) (ek : Arr Mlkem1024.encapsulationKeyLen) (rest : Bytes) :
    sharedSecret seed (ek.bytes ++ rest) = (C.encapsulate seed ek).map Prod.fst := by
  rw [sharedSecret, List.take_left' ek.size, Arr.ofBytes_bytes, Option.bind_some]

lemma Accepted.symmetric {seed : C.Seed} {aad : Bytes} {sk : SecretBundle C} {secs : UInt64}
    {resumption : Option (Resumption C)} {m : Bytes} {init : Initialized C}
    (h : Accepted seed aad sk secs resumption m init) :
    sharedSecret seed m = some init.sharedSecret ∧ init.symmetric =
      (chain C).replay SymmetricState.salted (initEntries aad m (resumption.map Resumption.key)) := by
  cases h with
  | full ek e he =>
    have hs := sharedSecret_eq seed ek []
    rw [List.append_nil, he] at hs
    have hl : ek.bytes.length < Initialize.resumptionTokenEnd := by simp
    refine ⟨hs, ?_⟩
    rw [initEntries_full aad _ hl]
    simp only [SymmetricState.new, mix_eq]
    rfl
  | fallback ek token rest e he =>
    refine ⟨by rw [sharedSecret_eq, he]; rfl, ?_⟩
    rw [initEntries_token]
    simp only [SymmetricState.new, mix_eq]
    rfl
  | resumption ek r t e init he ht hi =>
    obtain ⟨ty, resume, rfl, _⟩ := resumptionTail_inv hi
    refine ⟨by rw [sharedSecret_eq, he]; rfl, ?_⟩
    rw [initEntries_token, replay_tail]
    simp only [SymmetricState.new, mix_eq]
    rfl

lemma Accepted.handshakeType {seed : C.Seed} {aad : Bytes} {sk : SecretBundle C} {secs : UInt64}
    {resumption : Option (Resumption C)} {m : Bytes} {init : Initialized C}
    (h : Accepted seed aad sk secs resumption m init) :
    init.handshakeType = Reply.handshakeTypeResume ↔ init.resume.isSome := by
  cases h with
  | full ek e he => exact iff_of_false Reply.full_ne_resume (by simp)
  | fallback ek token rest e he => exact iff_of_false Reply.fallback_ne_resume (by simp)
  | resumption ek r t e init he ht hi =>
    obtain ⟨ty, resume, rfl, ⟨rfl, rfl⟩ | ⟨rfl, ⟨p, rfl⟩, _⟩⟩ := resumptionTail_inv hi
    · exact iff_of_false Reply.full_ne_resume (by simp)
    · exact iff_of_true rfl rfl

/-- How a responder gets from its answer to a complete handshake. -/
inductive Completed : InitOk C → (replyMessage : Bytes) → (confirmMessage : Option Bytes) →
    HandshakeComplete C → Prop
  | resume {hc : HandshakeComplete C} {replyMessage : Bytes} (h : hc.messageToSend = some replyMessage) :
    Completed (.complete hc) replyMessage none hc
  | confirm {replyMessage confirmMessage : Bytes} {state : ReplyState C} {secs : UInt64}
    {alloc : C.BundleAlloc} {hc : HandshakeComplete C}
    (h : state.processConfirm confirmMessage secs alloc = .ok hc) :
    Completed (.incomplete replyMessage state) replyMessage (some confirmMessage) hc

lemma processInitialize_keys {seed : C.Seed} {aad m : Bytes} {sk : SecretBundle C}
    {resumption : Option (Resumption C)} {secs : UInt64} {alloc : C.MessageAlloc} {createPayload : Unit → Bytes}
    {r : InitOk C} (h : processInitialize seed aad m sk resumption secs alloc createPayload = .ok r)
    {replyMessage : Bytes} {confirmMessage : Option Bytes} {hc : HandshakeComplete C}
    (hr : Completed r replyMessage confirmMessage hc) :
    ∃ ss, sharedSecret seed m = some ss ∧
      hc.keys = splitKeys C (transcript aad m (resumption.map Resumption.key) replyMessage ss.bytes
        confirmMessage) (splitStep confirmMessage) ∧
      (replyMessage.head? = some Reply.handshakeTypeResume ↔ confirmMessage = none) := by
  obtain ⟨init, ha, hi⟩ := processInitialize_inv h
  obtain ⟨hss, hs⟩ := ha.symmetric
  have hty := ha.handshakeType
  have hsealed : (replySealed init sk (createPayload ())).1 = (chain C).replay init.symmetric
      (replyEntries (replyBytes init sk (createPayload ())) init.sharedSecret.bytes) := by
    rw [replyBytes, replay_reply, replySealed, replay_sealTail]
    rfl
  refine ⟨init.sharedSecret, hss, ?_⟩
  cases hi with
  | complete b p hres =>
    cases hr with
    | resume hm =>
      obtain rfl := Option.some.inj hm
      rw [hres] at hty
      refine ⟨?_, iff_of_true (congrArg some (hty.mpr rfl)) rfl⟩
      rw [splitKeys, replay_transcript, ← hs, ← hsealed]
      rfl
  | incomplete hres =>
    cases hr with
    | confirm hconfirm =>
      obtain ⟨t, rfl, hacc⟩ := processConfirm_inv hconfirm
      rw [hres] at hty
      refine ⟨?_, iff_of_false (fun h => absurd (hty.mp (Option.some.inj h)) Bool.false_ne_true) (Option.some_ne_none _)⟩
      rw [hacc.keys, splitKeys, replay_transcript, ← hs, ← hsealed, replay_tail]
      rfl

end ReplyState

structure InitiatorRun (C : CryptoAndMem) where
  seed : C.Seed
  aad : Bytes
  secretKeyBundle : SecretBundle C
  resumption : Option (Resumption C)
  payload : Bytes
  alloc : C.MessageAlloc
  initMessage : Bytes
  state : InitState C
  initialized : (InitState.initializeMessage seed aad secretKeyBundle resumption payload alloc :
    Outcome Empty _) = .ok (some (initMessage, state))
  replyMessage : Bytes
  secs : UInt64
  bundleAlloc : C.BundleAlloc
  messageAlloc : C.MessageAlloc
  result : HandshakeComplete C
  replied : state.processReply replyMessage secs bundleAlloc messageAlloc = .ok result

structure ResponderRun (C : CryptoAndMem) where
  seed : C.Seed
  aad : Bytes
  initMessage : Bytes
  secretKeyBundle : SecretBundle C
  resumption : Option (Resumption C)
  secs : UInt64
  alloc : C.MessageAlloc
  createPayload : Unit → Bytes
  answer : InitOk C
  initialized : ReplyState.processInitialize seed aad initMessage secretKeyBundle resumption secs alloc
    createPayload = .ok answer
  replyMessage : Bytes
  confirmMessage : Option Bytes
  result : HandshakeComplete C
  completed : ReplyState.Completed answer replyMessage confirmMessage result

namespace InitiatorRun

def sharedSecret (r : InitiatorRun C) : Option (Arr Mlkem1024.sharedSecretKeyLen) :=
  r.state.sharedSecret r.replyMessage

def confirmMessage (r : InitiatorRun C) : Option Bytes := r.result.messageToSend

def transcript (r : InitiatorRun C) : List Entry :=
  Transport.transcript r.aad r.initMessage
    (if r.replyMessage.head? = some Reply.handshakeTypeFallback then none else r.resumption.map Resumption.key)
    r.replyMessage (secretBytes r.sharedSecret) r.confirmMessage

def hashed (r : InitiatorRun C) : List Bytes := Transport.hashed C r.transcript (splitStep r.confirmMessage)

lemma spec (r : InitiatorRun C) : r.sharedSecret.isSome ∧
    r.result.keys = splitKeys C r.transcript (splitStep r.confirmMessage) ∧
    (r.replyMessage.head? = some Reply.handshakeTypeResume ↔ r.confirmMessage = none) := by
  obtain ⟨ss, hss, hk, ht⟩ :=
    InitState.processReply_keys (InitState.initializeMessage_started r.initialized) r.replied
  refine ⟨by rw [sharedSecret, hss]; rfl, ?_, ht⟩
  rw [transcript, sharedSecret, hss]
  exact hk

end InitiatorRun

namespace ResponderRun

def sharedSecret (r : ResponderRun C) : Option (Arr Mlkem1024.sharedSecretKeyLen) :=
  ReplyState.sharedSecret r.seed r.initMessage

def transcript (r : ResponderRun C) : List Entry :=
  Transport.transcript r.aad r.initMessage (r.resumption.map Resumption.key) r.replyMessage
    (secretBytes r.sharedSecret) r.confirmMessage

def hashed (r : ResponderRun C) : List Bytes := Transport.hashed C r.transcript (splitStep r.confirmMessage)

lemma spec (r : ResponderRun C) : r.sharedSecret.isSome ∧
    r.result.keys = splitKeys C r.transcript (splitStep r.confirmMessage) ∧
    (r.replyMessage.head? = some Reply.handshakeTypeResume ↔ r.confirmMessage = none) := by
  obtain ⟨ss, hss, hk, ht⟩ := ReplyState.processInitialize_keys r.initialized r.completed
  refine ⟨by rw [sharedSecret, hss]; rfl, ?_, ht⟩
  rw [transcript, sharedSecret, hss]
  exact hk

end ResponderRun

theorem equal_keys_same_transcript (i : InitiatorRun C) (r : ResponderRun C)
    (hxof : C.CollisionFree (i.hashed ++ r.hashed)) (hk : i.result.keys = r.result.keys) :
    i.aad = r.aad ∧ i.initMessage = r.initMessage ∧ i.replyMessage = r.replyMessage ∧
    i.confirmMessage = r.confirmMessage ∧ i.sharedSecret = r.sharedSecret ∧ i.sharedSecret.isSome ∧
    (i.replyMessage.head? = some Reply.handshakeTypeResume ↔ r.confirmMessage = none) := by
  obtain ⟨hi, hik, _⟩ := i.spec
  obtain ⟨hr, hrk, ht⟩ := r.spec
  rw [hik, hrk] at hk
  obtain ⟨haad, hm, hreply, hss, hc⟩ := messages_eq_of_keys hxof hk
  refine ⟨haad, hm, hreply, hc, secretBytes_inj hi hr hss, hi, hreply ▸ ht⟩

lemma exists_full_runs (hC : C.Correct) {sk : SecretBundle C} (hsk : sk.Built) {secs : UInt64}
    (ht : sk.publicBundle.ValidAt secs) (seed : C.Seed) (ma : C.MessageAlloc) (ba : C.BundleAlloc) :
    ∃ (i : InitiatorRun C) (r : ResponderRun C), i.result.keys = r.result.keys ∧ i.transcript = r.transcript ∧
      i.confirmMessage = r.confirmMessage ∧
      (i.transcript ++ [(splitStep i.confirmMessage, [])]).map Prod.fst = [0, 1, 2, 3, 4, 5, 6, 7, 8] := by
  obtain ⟨ss, ct, kb, kb', _, _, henc, hdec, hinit, hreply, hprocess, hconfirm⟩ := full_handshake_steps (ε := Empty)
    hC hsk hsk ht ht secs seed seed [] [1] (fun _ => [2]) ma ma ma ba ba
  let i : InitiatorRun C := ⟨_, _, _, _, _, _, _, _, hinit, _, _, _, _, _, hprocess⟩
  let r : ResponderRun C := ⟨_, _, _, _, _, _, _, _, _, hreply, _, _, _, .confirm hconfirm⟩
  have hi : i.sharedSecret = some ss := (InitState.sharedSecret_eq _ _ _ _).trans hdec
  have hr : r.sharedSecret = some ss := by
    have hs := ReplyState.sharedSecret_eq seed (C.generate seed).1 []
    rw [List.append_nil, henc] at hs
    exact hs
  have hl : (C.generate seed).1.bytes.length < Initialize.resumptionTokenEnd := by simp
  have hti : i.transcript = transcript [] (C.generate seed).1.bytes none i.replyMessage ss.bytes i.confirmMessage := by
    rw [InitiatorRun.transcript, hi]
    simp only [show i.resumption = none from rfl, Option.map_none, ite_self]
    rfl
  have htr : r.transcript = transcript [] (C.generate seed).1.bytes none i.replyMessage ss.bytes i.confirmMessage := by
    rw [ResponderRun.transcript, hr]
    rfl
  refine ⟨i, r, rfl, hti.trans htr.symm, rfl, ?_⟩
  rw [hti, transcript, initEntries_full _ _ hl]
  rfl

/-! The assumption can be met: a function that returns the step number over and over does not collide
within one handshake, since no step number is used twice. -/

namespace plain

def stepXof (x : Bytes) (n : ℕ) : Arr n := ⟨List.replicate n (x.getD 64 0), by simp⟩

lemma stepXof_input (k : Arr Shake256.collisionResistanceNist5Len) (e : Entry) :
    ((chain (plain stepXof)).input k e).getD 64 0 = e.1 := by
  have hk : k.bytes.length = 64 := k.size
  change (k.bytes ++ (e.1 :: e.2)).getD 64 0 = e.1
  simp [List.getD_eq_getElem?_getD, hk]

lemma inputs_eq_of_step {es : List Entry} (hes : (es.map Prod.fst).Nodup) {s : SymmetricState (plain stepXof)}
    {x y : Bytes} (hx : x ∈ (chain _).inputs s es) (hy : y ∈ (chain _).inputs s es)
    (h : x.getD 64 0 = y.getD 64 0) : x = y := by
  induction es generalizing s with
  | nil => simp [HashChain.inputs] at hx
  | cons e es ih =>
    obtain ⟨he, hes⟩ := List.nodup_cons.mp hes
    have htail : ∀ {z}, z ∈ (chain (plain stepXof)).inputs ((chain _).absorb s e) es →
        z.getD 64 0 ≠ e.1 := by
      intro z hz heq
      obtain ⟨k, f, hf, rfl⟩ := HashChain.exists_of_mem_inputs _ hz
      rw [stepXof_input] at heq
      exact he (heq ▸ List.mem_map_of_mem hf)
    rcases List.mem_cons.mp hx with rfl | hx <;> rcases List.mem_cons.mp hy with rfl | hy
    · rfl
    · exact absurd ((stepXof_input _ e).symm.trans h).symm (htail hy)
    · exact absurd (h.trans (stepXof_input _ e)) (htail hx)
    · exact ih hes hx hy

lemma collisionFree_of_nodup {es : List Entry} {a : UInt8} (h : ((es ++ [(a, [])]).map Prod.fst).Nodup) :
    (plain stepXof).CollisionFree (hashed (plain stepXof) es a) := by
  intro x hx y hy n k hn hk hxy
  apply inputs_eq_of_step h hx hy
  change (List.replicate n (x.getD 64 0)).take 64 = (List.replicate k (y.getD 64 0)).take 64 at hxy
  rw [List.take_replicate, List.take_replicate, Nat.min_eq_left hn, Nat.min_eq_left hk] at hxy
  exact (List.replicate_inj.mp hxy).2.resolve_left (by decide)

end plain

theorem equal_keys_same_transcript_plain :
    ∃ (i : InitiatorRun (plain plain.stepXof)) (r : ResponderRun (plain plain.stepXof)),
      (plain plain.stepXof).CollisionFree (i.hashed ++ r.hashed) ∧ i.result.keys = r.result.keys ∧
      i.replyMessage = r.replyMessage := by
  obtain ⟨i, r, hk, ht, hc, hsteps⟩ := exists_full_runs (plain.correct plain.stepXof) (plain.bundle_built _)
    (plain.bundle_validAt _) () () ()
  have hh : r.hashed = i.hashed := by
    rw [ResponderRun.hashed, InitiatorRun.hashed, ht, hc]
  have hfree : (plain plain.stepXof).CollisionFree i.hashed :=
    plain.collisionFree_of_nodup (by rw [hsteps]; decide)
  have hxof : (plain plain.stepXof).CollisionFree (i.hashed ++ r.hashed) := by
    intro x hx y hy
    rw [hh, List.mem_append, or_self] at hx hy
    exact hfree x hx y hy
  exact ⟨i, r, hxof, hk, (equal_keys_same_transcript i r hxof hk).2.2.1⟩

end Pqsnet.Transport
