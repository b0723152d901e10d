import Pqsnet.Session.Contexts

/-! Handshakes between contexts: they complete when the packets come through, and those that complete are with whom they
seem to be. -/

namespace Pqsnet.Session

open Checked Outcome Transport

variable {C : CryptoAndMem} {ι : Type}

/-- A packet with a whole message: the handshake number, the length, the offset and the bytes. -/
def wholeFragment (no : ℕ) (message : Bytes) : Bytes :=
  toBe handshakeNoLen no ++ (varusizeWrite message.length ++ (varusizeWrite 0 ++ message))

lemma take_wholeFragment (no : ℕ) (message : Bytes) : (wholeFragment no message).take handshakeNoLen = toBe handshakeNoLen no :=
  List.take_left' (toBe_length _ _)

lemma wholeFragment_length (no : ℕ) (message : Bytes) :
    (wholeFragment no message).length = handshakeNoLen + varusizeLen message.length + 1 + message.length := by
  have hz : varusizeLen 0 = 1 := rfl
  simp only [wholeFragment, List.length_append, toBe_length, varusizeWrite_length, hz]
  omega

lemma tryNew_wholeFragment {no : ℕ} {message : Bytes} (hm : message.length ≤ varintU32Max) :
    (Desegmenter.tryNew boxMalloc (wholeFragment no message) handshakeNoLen fragmentFlags : Outcome Empty _) =
      .ok (.singleSeg (handshakeNoLen + varusizeLen message.length + 1, (wholeFragment no message).length),
        (wholeFragment no message).length) := by
  have hlen := tryRead_write (ε := Empty) (2 ^ 64 - 1) hm (show wholeFragment no message = _ from rfl) (toBe_length _ _).symm
  have hoff := tryRead_write (ε := Empty) (2 ^ 64 - 1) (Nat.zero_le varintU32Max)
    (show wholeFragment no message = (toBe handshakeNoLen no ++ varusizeWrite message.length) ++ (varusizeWrite 0 ++ message) by
      rw [wholeFragment, List.append_assoc]) rfl
  have hfront : (toBe handshakeNoLen no ++ varusizeWrite message.length).length = handshakeNoLen + varusizeLen message.length := by
    rw [List.length_append, toBe_length, varusizeWrite_length]
  rw [hfront, show varusizeLen 0 = 1 from rfl] at hoff
  have htotal := wholeFragment_length no message
  have hsub := sub_ok (ε := Empty) (show handshakeNoLen + varusizeLen message.length + 1 ≤ (wholeFragment no message).length by omega)
  have hrest : (wholeFragment no message).length - (handshakeNoLen + varusizeLen message.length + 1) = message.length := by omega
  have hsmall : message.length < 2 ^ 64 := by
    simp only [varintU32Max] at hm
    omega
  have hfits : ¬ (0 + message.length ≥ 2 ^ 64 ∨ ∃ n ∈ some message.length, 0 + message.length > n) := by
    rintro (hbig | ⟨n, hn, hlt⟩)
    · omega
    · cases hn
      omega
  simp only [Desegmenter.tryNew, Desegmenter.readHeader, Desegmenter.readField, Desegmenter.readSegLen, fragmentFlags,
    varusizeTryRead, ↓reduceIte, hlen, hoff, ok_bind, hsub, hrest, Option.map_some, Option.getD_some, if_neg hfits]
  rw [← htotal]

namespace Context

variable {ctx : Context C} {env : Env C} {no id : ℕ} {message : Bytes}

lemma firstFragment_whole {pending : Pending C} {keep : Desegmenter → HandshakeEntry C} (hm : message.length ≤ varintU32Max) :
    (firstFragment ctx (wholeFragment no message) no pending keep : Outcome Empty _) =
      .ok (.message no pending message, ctx.setEntry no .coolDown) := by
  have htotal := wholeFragment_length no message
  have hslice : (slice (wholeFragment no message) (handshakeNoLen + varusizeLen message.length + 1)
      (wholeFragment no message).length : Outcome Empty _) = .ok message := by
    rw [slice_ok (by omega) le_rfl, List.take_length, wholeFragment, ← List.append_assoc, ← List.append_assoc]
    apply congrArg
    apply List.drop_left'
    simp only [List.length_append, toBe_length, varusizeWrite_length]
    rfl
  rw [firstFragment, tryNew_wholeFragment hm, ok_bind]
  dsimp only
  rw [hslice, ok_bind]

lemma recvFragment_whole (hno : no < 3 * handshakeNoSocketIdInc) (hm : message.length ≤ varintU32Max) {pending : Pending C}
    (h : (∃ entry keep, ctx.handshakeTable no = some entry ∧ entry.waiting = some (pending, none, keep)) ∨
      ctx.handshakeTable no = none ∧ no < handshakeNoSocketIdInc ∧ pending = .initMessage) :
    (recvFragment ctx (wholeFragment no message) : Outcome Empty _) = .ok (.message no pending message, ctx.setEntry no .coolDown) := by
  have hinc : handshakeNoSocketIdInc = 256 ^ 15 := by decide
  have htop : no / 256 ^ 15 < 3 := by
    rw [← hinc]
    exact Nat.div_lt_of_lt_mul (by rwa [Nat.mul_comm])
  have hlong : handshakeNoLen ≤ (wholeFragment no message).length := by
    rw [wholeFragment_length]
    omega
  have hread : (varu64TryRead (wholeFragment no message) 0 : Outcome Empty _) = .ok (some (no / 256 ^ 15), 1) := by
    have hbyte : (wholeFragment no message)[0]? = some (UInt8.ofNat (no / 256 ^ 15 % 256)) := by
      rw [wholeFragment, show handshakeNoLen = 15 + 1 from rfl, toBe_succ]
      rfl
    have hvalue : (UInt8.ofNat (no / 256 ^ 15 % 256)).toNat = no / 256 ^ 15 := by
      rw [UInt8.toNat_ofNat']
      omega
    rw [varu64TryRead, tryRead_index _ hbyte, hvalue, Nat.div_eq_of_lt (show no / 256 ^ 15 < 64 by omega)]
    rfl
  have hkey : fromBe (toBe handshakeNoLen no) = no := by
    rw [fromBe_toBe, Nat.mod_eq_of_lt]
    rw [show handshakeNoLen = 16 from rfl]
    omega
  have hreserved : no / 256 ^ 15 ≤ socketIdReservedMax := (by omega : no / 256 ^ 15 ≤ 2).trans (by decide)
  have hknown : ¬ no / 256 ^ 15 > socketIdConfirmMessage := by
    simp only [socketIdConfirmMessage]
    omega
  simp only [recvFragment, hread, ok_bind, if_pos hreserved, recvReserved, if_neg (not_lt.mpr hlong), if_neg hknown,
    slice_ok (Nat.zero_le _) hlong, List.drop_zero, take_wholeFragment, hkey]
  rcases h with ⟨entry, keep, htab, hw⟩ | ⟨htab, hfirst, rfl⟩
  · simp only [htab, hw]
    exact firstFragment_whole hm
  · have hinit : ¬ no / 256 ^ 15 ≠ socketIdInitMessage := by
      rw [not_not, ← hinc, Nat.div_eq_of_lt hfirst]
      rfl
    simp only [htab, if_neg hinit]
    exact firstFragment_whole hm

lemma recv_whole (ctx : Context C) (env : Env C) (hno : no < 3 * handshakeNoSocketIdInc) (hm : message.length ≤ varintU32Max) {pending : Pending C}
    (h : (∃ entry keep, ctx.handshakeTable no = some entry ∧ entry.waiting = some (pending, none, keep)) ∨
      ctx.handshakeTable no = none ∧ no < handshakeNoSocketIdInc ∧ pending = .initMessage) :
    (recv ctx env (wholeFragment no message) : Outcome Empty _) = (ctx.setEntry no .coolDown).dispatch env no pending message ∧
      ctx.completion env (wholeFragment no message) =
        (ctx.setEntry no .coolDown).messageCompletion env no message pending := by
  have hfrag := recvFragment_whole hno hm h
  constructor
  · rw [recv, hfrag, ok_bind]
  · rw [completion, hfrag]

lemma recv_init (ctx : Context C) (env : Env C) {reply : Bytes} {state : ReplyState C} (hno : no < handshakeNoSocketIdInc) (hm : message.length ≤ varintU32Max)
    (hvacant : ctx.handshakeTable no = none)
    (hconfirm : ctx.handshakeTable (no + handshakeNoSocketIdInc + handshakeNoSocketIdInc) = none)
    (hid : env.socketIds.find? (fun id => (ctx.socketTable id).isNone) = some id)
    (h : ReplyState.processInitialize env.seed (toBe handshakeNoLen no) message ctx.secretBundle none env.secsSinceUnixEpoch
      env.messageAlloc (fun _ => env.payload id) = .ok (.incomplete reply state)) :
    (recv ctx env (wholeFragment no message) : Outcome Empty _) =
        .ok (((ctx.consume no (.processInitialize no)).setSocket id (some none)).setEntry
          (no + handshakeNoSocketIdInc + handshakeNoSocketIdInc) (.responderSent id none reply state)) ∧
      ctx.completion env (wholeFragment no message) = none := by
  obtain ⟨hrecv, hcompletion⟩ := recv_whole ctx env (by omega) hm (.inr ⟨hvacant, hno, rfl⟩)
  rw [hrecv, hcompletion]
  refine ⟨?_, messageCompletion_initMessage⟩
  obtain ⟨init, hdecode, hencode⟩ := bind_eq_ok.mp h
  have hinc : handshakeNoSocketIdInc = 2 ^ 120 := by decide
  have hne : no + handshakeNoSocketIdInc + handshakeNoSocketIdInc ≠ no := by omega
  have hreplyNo : (addNo no handshakeNoSocketIdInc : Outcome Empty ℕ) = .ok (no + handshakeNoSocketIdInc) := if_pos (by omega)
  have hconfirmNo : (addNo (no + handshakeNoSocketIdInc) handshakeNoSocketIdInc : Outcome Empty ℕ) =
      .ok (no + handshakeNoSocketIdInc + handshakeNoSocketIdInc) := if_pos (by omega)
  have hpay : (createPayload (ctx.consume no (.processInitialize no)) env : Outcome Empty _) =
      .ok (env.payload id, id, (ctx.consume no (.processInitialize no)).setSocket id (some none)) :=
    createPayload_eq_ok.mpr ⟨hid, rfl, rfl⟩
  have hstill : ((ctx.consume no (.processInitialize no)).setSocket id (some none)).handshakeTable
      (no + handshakeNoSocketIdInc + handshakeNoSocketIdInc) = none := by
    rw [setSocket_table, consume_table, Function.update_of_ne hne, hconfirm]
  have hdecode' : (attempt (ReplyState.decodeInitialize env.seed (toBe handshakeNoLen no) message
      ((ctx.setEntry no .coolDown).log (.processInitialize no)).secretBundle none env.secsSinceUnixEpoch) : Outcome Empty _) =
      .ok (.ok init) := by
    rw [show ((ctx.setEntry no .coolDown).log (.processInitialize no)).secretBundle = ctx.secretBundle from rfl, hdecode]
    rfl
  have hencode' : (attempt (ReplyState.encodeReply init ((ctx.consume no (.processInitialize no)).setSocket id
      (some none)).secretBundle (env.payload id) env.messageAlloc) : Outcome Empty _) = .ok (.ok (.incomplete reply state)) := by
    rw [show ((ctx.consume no (.processInitialize no)).setSocket id (some none)).secretBundle = ctx.secretBundle from rfl, hencode]
    rfl
  simp only [dispatch, recvInitMessage]
  rw [hdecode', ok_bind]
  dsimp only
  rw [show (ctx.setEntry no .coolDown).log (.processInitialize no) = ctx.consume no (.processInitialize no) from rfl, hpay, ok_bind]
  dsimp only
  rw [hencode', ok_bind]
  dsimp only
  rw [hreplyNo, ok_bind, hconfirmNo, ok_bind, hstill]

lemma recv_reply (ctx : Context C) (env : Env C) {m : Bytes} {state : InitState C} {hc : HandshakeComplete C} (hno : no < 3 * handshakeNoSocketIdInc)
    (hm : message.length ≤ varintU32Max) (htab : ctx.handshakeTable no = some (.initiatorSent id none m state))
    (h : state.processReply message env.secsSinceUnixEpoch env.bundleAlloc env.messageAlloc = .ok hc) :
    (recv ctx env (wholeFragment no message) : Outcome Empty _) = .ok ((ctx.consume no (.processReply no)).handshakeComplete id) ∧
      ctx.completion env (wholeFragment no message) = some ⟨.processReply no, message, id, hc⟩ := by
  obtain ⟨hrecv, hcompletion⟩ := recv_whole ctx env hno hm (.inl ⟨_, _, htab, rfl⟩)
  rw [hrecv, hcompletion]
  simp only [dispatch, messageCompletion, h]
  exact ⟨rfl, trivial⟩

lemma recv_confirm (ctx : Context C) (env : Env C) {m : Bytes} {state : ReplyState C} {hc : HandshakeComplete C} (hno : no < 3 * handshakeNoSocketIdInc)
    (hm : message.length ≤ varintU32Max) (htab : ctx.handshakeTable no = some (.responderSent id none m state))
    (h : state.processConfirm message env.secsSinceUnixEpoch env.bundleAlloc = .ok hc) :
    (recv ctx env (wholeFragment no message) : Outcome Empty _) = .ok ((ctx.consume no (.processConfirm no)).handshakeComplete id) ∧
      ctx.completion env (wholeFragment no message) = some ⟨.processConfirm no, message, id, hc⟩ := by
  obtain ⟨hrecv, hcompletion⟩ := recv_whole ctx env hno hm (.inl ⟨_, _, htab, rfl⟩)
  rw [hrecv, hcompletion]
  simp only [dispatch, messageCompletion, h]
  exact ⟨rfl, trivial⟩

lemma openHandshake_eq (ctx : Context C) (env : Env C) (random : ℕ) {state : InitState C} (hr : random < 2 ^ 128)
    (hid : env.socketIds.find? (fun id => (ctx.socketTable id).isNone) = some id)
    (h : (InitState.initializeMessage env.seed (toBe handshakeNoLen (random >>> 8)) ctx.secretBundle none (env.payload id)
      env.messageAlloc : Outcome Empty _) = .ok (some (message, state))) :
    (openHandshake ctx env random : Outcome Empty _) = .ok ((ctx.setSocket id (some none)).setEntry
      (random >>> 8 + handshakeNoSocketIdInc) (.initiatorSent id none message state)) := by
  have hinc : handshakeNoSocketIdInc = 2 ^ 120 := by decide
  have hadd : (addNo (random >>> 8) handshakeNoSocketIdInc : Outcome Empty ℕ) = .ok (random >>> 8 + handshakeNoSocketIdInc) := by
    refine if_pos ?_
    rw [Nat.shiftRight_eq_div_pow]
    omega
  have hpay : (createPayload ctx env : Outcome Empty _) = .ok (env.payload id, id, ctx.setSocket id (some none)) :=
    createPayload_eq_ok.mpr ⟨hid, rfl, rfl⟩
  rw [openHandshake, hadd, ok_bind, hpay, ok_bind]
  dsimp only
  rw [show (ctx.setSocket id (some none)).secretBundle = ctx.secretBundle from rfl, h, ok_bind, unwrap_some, ok_bind]

lemma delivered_short {p q : Party C} {i : Initiator C} {r : Responder C} {d : InitiatorDone C} {e : ResponderDone C}
    (h : Network.Delivered p q i r d e) (hi : (p.1.publicBundle.publicBytes ++ i.payload).length ≤ 2 ^ 29)
    (hr : (q.1.publicBundle.publicBytes ++ r.payload).length ≤ 2 ^ 29) : i.initMessage.length ≤ varintU32Max ∧
      d.replyMessage.length ≤ varintU32Max ∧ ∀ m ∈ e.confirmMessage, m.length ≤ varintU32Max := by
  have hmax : varintU32Max = 2 ^ 30 - 1 := by decide
  have hinit : i.initMessage.length = 1568 := h.initLength
  have hreply : d.replyMessage.length = 1569 + (q.1.publicBundle.publicBytes ++ r.payload).length + 4659 := h.replyLength
  refine ⟨by omega, by omega, fun m hm => ?_⟩
  have hconfirm : m.length = (p.1.publicBundle.publicBytes ++ i.payload).length + 4659 := h.confirmLength m hm
  omega

/-- A context before anything was received, with the step numbers for hashes. -/
def stepping : Context (plain plain.stepXof) := ⟨fun _ => none, fun _ => none, plain.party.1, []⟩

lemma offered_in_range : ∀ id ∈ [100], socketIdReservedMax < id ∧ id < varintU32Max :=
  List.forall_mem_singleton.mpr ⟨by decide, by decide⟩

/-- Surroundings in which the bundle is valid. -/
def surroundings : Env (plain plain.stepXof) := ⟨(), [100], 5, (), (), fun _ => [], offered_in_range⟩

lemma stepping_length : (plain.party.1.publicBundle.publicBytes ++ ([] : Bytes)).length ≤ 2 ^ 29 := by
  decide +kernel

end Context

namespace Contexts

lemma toBe_inj {a b : ℕ} (ha : a < 2 ^ 128) (hb : b < 2 ^ 128) (h : toBe handshakeNoLen a = toBe handshakeNoLen b) : a = b := by
  have hval := congrArg fromBe h
  have hpow : 256 ^ handshakeNoLen = 2 ^ 128 := by decide
  rwa [fromBe_toBe, fromBe_toBe, hpow, Nat.mod_eq_of_lt ha, Nat.mod_eq_of_lt hb] at hval

variable {party : ι → Party C} {p : Contexts C ι} {net : Network C}

/-- The record of a handshake that this side opened. -/
structure Initiated (party : Party C) (c : Completion C) (d : InitiatorDone C) : Prop where
  party : d.initiator.party = party
  aad : d.initiator.aad = toBe handshakeNoLen c.handshakeNo
  received : d.replyMessage = c.received
  complete : d.result = c.complete

/-- The record of a handshake that this side answered. -/
structure Responded (party : Party C) (c : Completion C) (d : ResponderDone C) : Prop where
  party : d.responder.party = party
  aad : d.responder.aad = toBe handshakeNoLen c.handshakeNo
  received : d.confirmMessage = some c.received
  complete : d.result = c.complete

lemma Recorded.exists_initiated (h : p.Recorded party net) {k : ι} {c : Completion C} (hc : (k, c) ∈ p.completions)
    (hi : c.isInitiator) : ∃ d ∈ net.initiatorsDone, Initiated (party k) c d := by
  have hx : (k, c) ∈ p.completions.filter fun x => x.2.isInitiator := List.mem_filter.mpr ⟨hc, hi⟩
  have hmem := List.mem_map_of_mem (f := fun x : ι × Completion C =>
    (party x.1, toBe handshakeNoLen x.2.handshakeNo, x.2.received, x.2.complete)) hx
  rw [← h.initiatorsDone] at hmem
  obtain ⟨d, hd, heq⟩ := List.mem_map.mp hmem
  simp only [Prod.mk.injEq] at heq
  exact ⟨d, hd, heq.1, heq.2.1, heq.2.2.1, heq.2.2.2⟩

lemma Recorded.exists_responded (h : p.Recorded party net) {k : ι} {c : Completion C} (hc : (k, c) ∈ p.completions)
    (hi : ¬ c.isInitiator) : ∃ d ∈ net.respondersDone, Responded (party k) c d := by
  have hx : (k, c) ∈ p.completions.filter fun x => !x.2.isInitiator := List.mem_filter.mpr ⟨hc, by simpa using hi⟩
  have hmem := List.mem_map_of_mem (f := fun x : ι × Completion C =>
    (party x.1, toBe handshakeNoLen x.2.handshakeNo, some x.2.received, x.2.complete)) hx
  rw [← h.respondersDone] at hmem
  obtain ⟨d, hd, heq⟩ := List.mem_map.mp hmem
  simp only [Prod.mk.injEq] at heq
  exact ⟨d, hd, heq.1, heq.2.1, heq.2.2.1, heq.2.2.2⟩

lemma Recorded.exists_completion (h : p.Recorded party net) {d : InitiatorDone C} (hd : d ∈ net.initiatorsDone) :
    ∃ k c, (k, c) ∈ p.completions ∧ c.isInitiator ∧ Initiated (party k) c d := by
  have hmem := List.mem_map_of_mem (f := fun d : InitiatorDone C =>
    (d.initiator.party, d.initiator.aad, d.replyMessage, d.result)) hd
  rw [h.initiatorsDone] at hmem
  obtain ⟨⟨k, c⟩, hx, heq⟩ := List.mem_map.mp hmem
  obtain ⟨hx, hi⟩ := List.mem_filter.mp hx
  simp only [Prod.mk.injEq] at heq
  exact ⟨k, c, hx, hi, heq.1.symm, heq.2.1.symm, heq.2.2.1.symm, heq.2.2.2.symm⟩

/-- The context with that key processed the first message of the handshake. -/
structure Answered (party : ι → Party C) (p : Contexts C ι) (sk : C.SecretKey) (c : Completion C) (j : ι) : Prop where
  key : (party j).1.onlineSecretKey = sk
  processed : .processInitialize c.handshakeNo ∈ (p.node j).events
  bundle : c.complete.remoteKeyBundle.Same (party j).1.publicBundle

/-- The context with that key opened the handshake and has completed it. The keys are the same if the last message came
through as it was sent. -/
structure Agreed (party : ι → Party C) (sk : C.SecretKey) (k : ι) (c : Completion C) (j : ι) (c' : Completion C) : Prop where
  isInitiator : c'.isInitiator
  handshakeNo : c'.handshakeNo = c.handshakeNo
  key : (party j).1.onlineSecretKey = sk
  bundle : c.complete.remoteKeyBundle.Same (party j).1.publicBundle
  peer : c'.complete.remoteKeyBundle.Same (party k).1.publicBundle
  keys : c.complete.keys = c'.complete.keys ↔ some c.received = c'.complete.messageToSend

lemma Recorded.answered (hC : C.Correct) (h : p.Recorded party net) (hnet : net.Ok) {owner : C.PublicKey → Option C.SecretKey}
    (htrust : net.Trusted owner) {k : ι} {c : Completion C} (hc : (k, c) ∈ p.completions) (hi : c.isInitiator)
    {sk : C.SecretKey} (hsk : owner c.complete.remoteKeyBundle.onlineKey = some sk) : ∃ j, Answered party p sk c j := by
  obtain ⟨d, hd, hinitiated⟩ := h.exists_initiated hc hi
  rw [← hinitiated.complete] at hsk
  obtain ⟨r, hr, hkey, hanswers⟩ := hnet.answered hC htrust hd hsk
  obtain ⟨j, no, hreplies, hprocessed⟩ := h.responders r hr
  obtain rfl : no = c.handshakeNo := by
    apply toBe_inj hreplies.small (h.small _ hc)
    rw [← hreplies.aad, hanswers.aad, hinitiated.aad]
  refine ⟨j, ?_, hprocessed, ?_⟩
  · rw [← hreplies.party, hkey]
  · rw [← hreplies.party, ← hinitiated.complete]
    exact hanswers.bundle

lemma Recorded.agreed (hC : C.Correct) (h : p.Recorded party net) (hnet : net.Ok) {owner : C.PublicKey → Option C.SecretKey}
    (htrust : net.Trusted owner) {k : ι} {c : Completion C} (hc : (k, c) ∈ p.completions) (hi : ¬ c.isInitiator)
    {sk : C.SecretKey} (hsk : owner c.complete.remoteKeyBundle.onlineKey = some sk) :
    ∃ j c', (j, c') ∈ p.completions ∧ Agreed party sk k c j c' := by
  obtain ⟨d, hd, hresponded⟩ := h.exists_responded hc hi
  rw [← hresponded.complete] at hsk
  obtain ⟨e, he, hkey, hconfirms⟩ := hnet.confirmed hC htrust hd hsk
  obtain ⟨j, c', hc', hi', hinitiated⟩ := h.exists_completion he
  refine ⟨j, c', hc', hi', ?_, ?_, ?_, ?_, ?_⟩
  · apply toBe_inj (h.small _ hc') (h.small _ hc)
    rw [← hinitiated.aad, ← hconfirms.aad, hresponded.aad]
  · rw [← hinitiated.party, hkey]
  · rw [← hinitiated.party, ← hresponded.complete]
    exact hconfirms.initiator
  · rw [← hinitiated.complete, ← hresponded.party]
    exact hconfirms.bundle
  · rw [← hinitiated.complete, ← hresponded.complete, ← hresponded.received]
    exact hconfirms.keys

/-- Whoever a completed handshake seems to be with took part in it, if signatures are not forged and hashes do not
collide in the network that the contexts make up. -/
theorem contexts_authenticate (hC : C.Correct) {as : List (Network.Action C)} (h : p.Recorded party (Network.run as))
    {owner : C.PublicKey → Option C.SecretKey} (htrust : (Network.run as).Trusted owner) {k : ι} {c : Completion C}
    (hc : (k, c) ∈ p.completions) {sk : C.SecretKey} (hsk : owner c.complete.remoteKeyBundle.onlineKey = some sk) :
    if c.isInitiator then ∃ j, Answered party p sk c j else ∃ j c', (j, c') ∈ p.completions ∧ Agreed party sk k c j c' := by
  split
  · rename_i hi
    exact h.answered hC (Network.Ok.run as) htrust hc hi hsk
  · rename_i hi
    exact h.agreed hC (Network.Ok.run as) htrust hc hi hsk

lemma received_eq [DecidableEq ι] {k : ι} {env : Env C} {packet : Bytes} {ctx ctx' : Context C} {c : Option (Completion C)}
    (hk : p.node k = ctx) (h : (ctx.recv env packet : Outcome Empty _) = .ok ctx') (hc : ctx.completion env packet = c) :
    Step p (p.set k ctx' c) := by
  subst hk hc
  exact .received k h

section Stepping

variable {no : ℕ} {m₁ m₂ m₃ : Bytes} {init : InitState (plain plain.stepXof)} {reply : ReplyState (plain plain.stepXof)}
  {hc₁ hc₂ : HandshakeComplete (plain plain.stepXof)}

/-- One that opened a handshake. -/
def opening (no : ℕ) (m₁ : Bytes) (init : InitState (plain plain.stepXof)) : Context (plain plain.stepXof) :=
  (Context.stepping.setSocket 100 (some none)).setEntry (no + handshakeNoSocketIdInc) (.initiatorSent 100 none m₁ init)

lemma opening_table : (opening no m₁ init).handshakeTable (no + handshakeNoSocketIdInc) =
    some (.initiatorSent 100 none m₁ init) := by
  rw [opening, Context.setEntry_table, Function.update_self]

/-- One that answered it. -/
def answering (no : ℕ) (m₂ : Bytes) (reply : ReplyState (plain plain.stepXof)) : Context (plain plain.stepXof) :=
  ((Context.stepping.consume no (.processInitialize no)).setSocket 100 (some none)).setEntry
    (no + handshakeNoSocketIdInc + handshakeNoSocketIdInc) (.responderSent 100 none m₂ reply)

lemma answering_table : (answering no m₂ reply).handshakeTable (no + handshakeNoSocketIdInc + handshakeNoSocketIdInc) =
    some (.responderSent 100 none m₂ reply) := by
  rw [answering, Context.setEntry_table, Function.update_self]

/-- Two contexts after a handshake whose packets all came through. -/
def finished (no : ℕ) (m₁ m₂ m₃ : Bytes) (init : InitState (plain plain.stepXof)) (reply : ReplyState (plain plain.stepXof))
    (hc₁ hc₂ : HandshakeComplete (plain plain.stepXof)) : Contexts (plain plain.stepXof) Bool :=
  let replyNo := no + handshakeNoSocketIdInc
  let confirmNo := replyNo + handshakeNoSocketIdInc
  let start : Contexts (plain plain.stepXof) Bool := ⟨fun _ => Context.stepping, []⟩
  let both := (start.set true (opening no m₁ init) none).set false (answering no m₂ reply) none
  (both.set true (((opening no m₁ init).consume replyNo (.processReply replyNo)).handshakeComplete 100)
    (some ⟨.processReply replyNo, m₂, 100, hc₁⟩)).set false
      (((answering no m₂ reply).consume confirmNo (.processConfirm confirmNo)).handshakeComplete 100)
      (some ⟨.processConfirm confirmNo, m₃, 100, hc₂⟩)

lemma finished_recorded (hno : no < handshakeNoSocketIdInc) :
    (finished no m₁ m₂ m₃ init reply hc₁ hc₂).Recorded (fun _ => plain.party)
      ⟨[⟨plain.party, toBe handshakeNoLen no, none, [], m₁, init⟩],
        [⟨plain.party, (), toBe handshakeNoLen no, m₁, none, [], .incomplete m₂ reply⟩],
        [⟨⟨plain.party, toBe handshakeNoLen no, none, [], m₁, init⟩, m₂, hc₁⟩],
        [⟨⟨plain.party, (), toBe handshakeNoLen no, m₁, none, [], .incomplete m₂ reply⟩, some m₃, hc₂⟩]⟩ := by
  have hsmall : no < 2 ^ 128 := hno.trans (by decide)
  refine ⟨?_, ?_, ?_, ?_, ?_, ?_, ?_⟩
  · rintro (_ | _) <;> rfl
  · intro k key entry hentry
    obtain rfl : entry = .coolDown := by
      cases k
      · simp only [finished, answering, set, Function.update_self, Context.handshakeComplete_table, Context.consume_table,
          Context.setEntry_table, Context.setSocket_table, Function.update_apply] at hentry
        split_ifs at hentry
        · exact (Option.some.inj hentry).symm
        · exact (Option.some.inj hentry).symm
        · cases hentry
      · simp only [finished, opening, set, ne_eq, Bool.true_eq_false, not_false_eq_true, Function.update_of_ne, Function.update_self,
          Context.handshakeComplete_table, Context.consume_table, Context.setEntry_table, Context.setSocket_table,
          Function.update_apply] at hentry
        split_ifs at hentry
        · exact (Option.some.inj hentry).symm
        · cases hentry
    trivial
  · exact List.forall_mem_singleton.mpr ⟨true, no, rfl, rfl, hsmall⟩
  · exact List.forall_mem_singleton.mpr ⟨false, no, ⟨rfl, rfl, hsmall⟩, List.mem_cons_self ..⟩
  · simpa [finished, set, Completion.handshakeNo] using hsmall
  · simp [finished, set, Completion.handshakeNo, Completion.isInitiator]
  · simp [finished, set, Completion.handshakeNo, Completion.isInitiator]

lemma finished_reached (hno : no < handshakeNoSocketIdInc)
    (h₁ : (InitState.initializeMessage () (toBe handshakeNoLen no) plain.party.1 none [] () : Outcome Empty _) =
      .ok (some (m₁, init)))
    (h₂ : ReplyState.processInitialize () (toBe handshakeNoLen no) m₁ plain.party.1 none 5 () (fun _ => []) =
      .ok (.incomplete m₂ reply))
    (h₃ : init.processReply m₂ 5 () () = .ok hc₁) (h₄ : reply.processConfirm m₃ 5 () = .ok hc₂)
    (hm₁ : m₁.length ≤ varintU32Max) (hm₂ : m₂.length ≤ varintU32Max) (hm₃ : m₃.length ≤ varintU32Max) :
    (finished no m₁ m₂ m₃ init reply hc₁ hc₂).Reached fun _ => plain.party := by
  have hinc : handshakeNoSocketIdInc = 2 ^ 120 := by decide
  have hshift : (no * 256) >>> 8 = no := by
    rw [Nat.shiftRight_eq_div_pow]
    omega
  have hopen := Context.openHandshake_eq Context.stepping Context.surroundings (no * 256)
    (by omega) rfl (by rw [hshift]; exact h₁)
  rw [hshift] at hopen
  obtain ⟨hrecv, hnone⟩ := Context.recv_init Context.stepping Context.surroundings hno hm₁ rfl rfl rfl h₂
  refine ⟨⟨fun _ => Context.stepping, []⟩, ⟨fun _ => ⟨fun _ => rfl, nofun, rfl⟩, fun _ => rfl, rfl⟩, ?_⟩
  obtain ⟨hreply, hsome⟩ := Context.recv_reply (opening no m₁ init) Context.surroundings
    (show no + handshakeNoSocketIdInc < 3 * handshakeNoSocketIdInc by omega) hm₂ opening_table h₃
  obtain ⟨hconfirm, hsome'⟩ := Context.recv_confirm (answering no m₂ reply) Context.surroundings
    (show no + handshakeNoSocketIdInc + handshakeNoSocketIdInc < 3 * handshakeNoSocketIdInc by omega) hm₃ answering_table h₄
  -- from the last packet to the first
  apply Relation.ReflTransGen.tail _ (received_eq (by simp [set]) hconfirm hsome')
  apply Relation.ReflTransGen.tail _ (received_eq (by simp [set]) hreply hsome)
  apply Relation.ReflTransGen.tail _ (received_eq (by simp [set]) hrecv hnone)
  exact .single (.opened true (show no * 256 < 2 ^ 128 by omega) rfl hopen)

end Stepping

open Context in
lemma exists_reached : ∃ (p : Contexts (plain plain.stepXof) Bool) (as : List (Network.Action (plain plain.stepXof)))
    (c c' : Completion (plain plain.stepXof)), p.Reached (fun _ => plain.party) ∧
      p.Recorded (fun _ => plain.party) (Network.run as) ∧ (Network.run as).Trusted (fun _ => some ()) ∧
      p.completions = [(true, c), (false, c')] ∧ c.isInitiator ∧ ¬ c'.isInitiator := by
  obtain ⟨m₁, m₂, m₃, init, reply, hc₁, hc₂, h₁, h₂, h₃, h₄, h⟩ := Network.exists_delivered (p := plain.party) (q := plain.party)
    () () (toBe handshakeNoLen 0) [] [] 5 () () () () () (plain.correct plain.stepXof) (plain.bundle_validAt _)
    (plain.bundle_validAt _)
  have hno : 0 < handshakeNoSocketIdInc := by decide
  obtain ⟨hm₁, hm₂, hm₃⟩ := delivered_short h stepping_length stepping_length
  obtain ⟨as, hrun⟩ : ∃ as, Network.run as = _ := ⟨_, Network.run_full (p := plain.party) h₁ h₂ h₃ h₄⟩
  refine ⟨finished 0 m₁ m₂ m₃ init reply hc₁ hc₂, as, _, _, finished_reached hno h₁ h₂ h₃ h₄ hm₁ hm₂ (hm₃ m₃ rfl), ?_, ?_, rfl, rfl,
    Bool.false_ne_true⟩
  · rw [hrun]
    exact finished_recorded hno
  · rw [hrun]
    exact plain.trusted_of_delivered h

theorem contexts_authenticate_stepping : ∃ (p : Contexts (plain plain.stepXof) Bool)
    (as : List (Network.Action (plain plain.stepXof))) (c c' : Completion (plain plain.stepXof)),
    p.Recorded (fun _ => plain.party) (Network.run as) ∧ (Network.run as).Trusted (fun _ => some ()) ∧
      p.completions = [(true, c), (false, c')] ∧ (∃ j, Answered (fun _ => plain.party) p () c j) ∧
      ∃ j c'', (j, c'') ∈ p.completions ∧ Agreed (fun _ => plain.party) () false c' j c'' := by
  obtain ⟨p, as, c, c', -, hrec, htrust, hall, hi, hi'⟩ := exists_reached
  have hc : (true, c) ∈ p.completions := by simp [hall]
  have hc' : (false, c') ∈ p.completions := by simp [hall]
  have h := contexts_authenticate (plain.correct _) hrec htrust hc rfl
  have h' := contexts_authenticate (plain.correct _) hrec htrust hc' rfl
  rw [if_pos hi] at h
  rw [if_neg hi'] at h'
  exact ⟨p, as, c, c', hrec, htrust, hall, h, h'⟩

section Refinement

variable [DecidableEq ι]

/-- Whatever packets they get, the contexts do what the parties of a network could do: there is a run of it with a
record for each handshake in a table and for each call of `handshake_complete`, and for nothing else. No message leads to two
of these calls. -/
theorem contexts_refine_network (h : p.Reached party) : (∃ as, p.Recorded party (Network.run as)) ∧ p.Tallied :=
  ⟨h.exists_recorded, h.tallied⟩

theorem contexts_refine_network_stepping : ∃ (p : Contexts (plain plain.stepXof) Bool), p.Reached (fun _ => plain.party) ∧
    p.completions.length = 2 ∧ (∃ as, p.Recorded (fun _ => plain.party) (Network.run as)) ∧ p.Tallied := by
  obtain ⟨p, as, c, c', hp, -, -, hall, -⟩ := exists_reached
  exact ⟨p, hp, by rw [hall]; rfl, contexts_refine_network hp⟩

end Refinement

end Contexts

end Pqsnet.Session
