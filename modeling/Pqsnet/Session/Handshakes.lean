import Pqsnet.Session.Fragments

/-! What a call does to the handshakes in progress, and that no message is processed twice. -/

namespace Pqsnet.Session

open Checked Outcome Transport

variable {C : CryptoAndMem} {ε : Type}

namespace HandshakeEntry

/-- The socket id that is kept for the session of a handshake. -/
def reserved : HandshakeEntry C → Option ℕ
  | coolDown => none
  | responderRecv _ => none
  | initiatorSent id _ _ _ => some id
  | responderSent id _ _ _ => some id

/-- What is called when the message that an entry waits for is complete. -/
def event (no : ℕ) : HandshakeEntry C → Event
  | initiatorSent _ _ _ _ => .processReply no
  | responderSent _ _ _ _ => .processConfirm no
  | _ => .processInitialize no

variable {entry : HandshakeEntry C} {pending : Pending C} {o : Option Desegmenter} {keep : Desegmenter → HandshakeEntry C}

lemma reserved_keep (hw : entry.waiting = some (pending, o, keep)) (d : Desegmenter) : (keep d).reserved = entry.reserved := by
  cases entry <;> cases hw <;> rfl

lemma ne_coolDown (hw : entry.waiting = some (pending, o, keep)) : entry ≠ .coolDown := by
  rintro rfl
  cases hw

lemma ne_coolDown_of_reserved {id : ℕ} (h : entry.reserved = some id) : entry ≠ .coolDown := by
  rintro rfl
  cases h

end HandshakeEntry

/-- The handshake number that a message is processed for. -/
def Event.key : Event → Option ℕ
  | processInitialize no => some no
  | processReply no => some no
  | processConfirm no => some no
  | handshakeComplete _ => none
  | deliver _ _ => none

@[simp] lemma HandshakeEntry.event_key (no : ℕ) (entry : HandshakeEntry C) : (entry.event no).key = some no := by
  cases entry <;> rfl

/-- A packet with a reserved socket id that is looked up in the table of handshakes. -/
structure Addresses (packet : Bytes) (socketId no : ℕ) : Prop where
  read : ∃ idx, (varu64TryRead packet 0 : Outcome Empty _) = .ok (some socketId, idx)
  known : socketId ≤ socketIdConfirmMessage
  long : handshakeNoLen ≤ packet.length
  no_eq : no = fromBe (packet.take handshakeNoLen)

namespace Context

variable {ctx ctx' : Context C} {env : Env C} {packet message : Bytes} {no : ℕ} {P : Bytes → Prop}

/-- The entry of a complete message goes on cool down, and the message is processed. -/
def consume (ctx : Context C) (no : ℕ) (e : Event) : Context C := (ctx.setEntry no .coolDown).log e

/-- A message that opens a handshake: the first fragment of it came, or all of it comes at once. -/
def AwaitsInit (P : Bytes → Prop) (ctx : Context C) (no : ℕ) : Prop :=
  (∃ d, ctx.handshakeTable no = some (.responderRecv d)) ∨
    (∃ packet, P packet ∧ Addresses packet socketIdInitMessage no) ∧ ctx.handshakeTable no = none

/-- What a call can do. The packets that it may receive are those of `P`. -/
inductive Effect (P : Bytes → Prop) (ctx : Context C) : Context C → Prop
  | idle : Effect P ctx ctx
  | deliver (socketId : ℕ) (plaintext : Bytes) : Effect P ctx (ctx.log (.deliver socketId plaintext))
  | opened {no id : ℕ} {m : Bytes} {state : InitState C} (hno : no < handshakeNoSocketIdInc) (hid : ctx.socketTable id = none)
      (hfresh : ctx.handshakeTable (no + handshakeNoSocketIdInc) = none) :
      Effect P ctx ((ctx.setSocket id (some none)).setEntry (no + handshakeNoSocketIdInc) (.initiatorSent id none m state))
  | started {packet : Bytes} {no : ℕ} {d : Desegmenter} (hp : P packet) (ha : Addresses packet socketIdInitMessage no)
      (h : ctx.handshakeTable no = none) : Effect P ctx (ctx.setEntry no (.responderRecv d))
  | kept {no : ℕ} {entry : HandshakeEntry C} {pending : Pending C} {o : Option Desegmenter} {keep : Desegmenter → HandshakeEntry C}
      {d : Desegmenter} (h : ctx.handshakeTable no = some entry) (hw : entry.waiting = some (pending, o, keep)) :
      Effect P ctx (ctx.setEntry no (keep d))
  | initFailed {no : ℕ} (h : ctx.AwaitsInit P no) : Effect P ctx (ctx.consume no (.processInitialize no))
  | initComplete {no id : ℕ} (h : ctx.AwaitsInit P no) (hid : ctx.socketTable id = none) :
      Effect P ctx (((ctx.consume no (.processInitialize no)).setSocket id (some none)).handshakeComplete id)
  | initSent {no id : ℕ} {m : Bytes} {state : ReplyState C} (h : ctx.AwaitsInit P no) (hid : ctx.socketTable id = none)
      (hvacant : ctx.handshakeTable (no + handshakeNoSocketIdInc + handshakeNoSocketIdInc) = none) :
      Effect P ctx (((ctx.consume no (.processInitialize no)).setSocket id (some none)).setEntry
        (no + handshakeNoSocketIdInc + handshakeNoSocketIdInc) (.responderSent id none m state))
  | complete {no id : ℕ} {entry : HandshakeEntry C} (h : ctx.handshakeTable no = some entry) (hid : entry.reserved = some id) :
      Effect P ctx ((ctx.consume no (entry.event no)).handshakeComplete id)
  | failed {no id : ℕ} {entry : HandshakeEntry C} (h : ctx.handshakeTable no = some entry) (hid : entry.reserved = some id) :
      Effect P ctx ((ctx.consume no (entry.event no)).setSocket id none)

/-- What a packet was found to be. -/
inductive Found (ctx : Context C) (packet : Bytes) : Fragment C × Context C → Prop
  | idle : Found ctx packet (.dropped, ctx)
  | data (socketId idx : ℕ) : Found ctx packet (.data socketId idx, ctx)
  | started {no : ℕ} {d : Desegmenter} (ha : Addresses packet socketIdInitMessage no) (h : ctx.handshakeTable no = none) :
      Found ctx packet (.dropped, ctx.setEntry no (.responderRecv d))
  | kept {socketId no : ℕ} {entry : HandshakeEntry C} {pending : Pending C} {o : Option Desegmenter}
      {keep : Desegmenter → HandshakeEntry C} {d : Desegmenter} (ha : Addresses packet socketId no)
      (h : ctx.handshakeTable no = some entry) (hw : entry.waiting = some (pending, o, keep)) :
      Found ctx packet (.dropped, ctx.setEntry no (keep d))
  | whole {no : ℕ} {message : Bytes} (ha : Addresses packet socketIdInitMessage no) (h : ctx.handshakeTable no = none) :
      Found ctx packet (.message no .initMessage message, ctx.setEntry no .coolDown)
  | completed {socketId no : ℕ} {entry : HandshakeEntry C} {pending : Pending C} {o : Option Desegmenter}
      {keep : Desegmenter → HandshakeEntry C} {message : Bytes} (ha : Addresses packet socketId no)
      (h : ctx.handshakeTable no = some entry) (hw : entry.waiting = some (pending, o, keep)) :
      Found ctx packet (.message no pending message, ctx.setEntry no .coolDown)

lemma firstFragment_cases {pending : Pending C} {keep : Desegmenter → HandshakeEntry C} {r : Fragment C × Context C}
    (h : (firstFragment ctx packet no pending keep : Outcome ε _) = .ok r) : r = (.dropped, ctx) ∨
      (∃ d, r = (.dropped, ctx.setEntry no (keep d))) ∨ ∃ message, r = (.message no pending message, ctx.setEntry no .coolDown) := by
  obtain ⟨⟨result, i⟩, -, h⟩ := bind_eq_ok.mp h
  cases result with
  | segmented d =>
    cases h
    exact .inr (.inl ⟨d, rfl⟩)
  | singleSeg range =>
    obtain ⟨m, -, h⟩ := bind_eq_ok.mp h
    cases h
    exact .inr (.inr ⟨m, rfl⟩)
  | invalid =>
    cases h
    exact .inl rfl
  | missingLen => cases h
  | allocFailure => cases h

lemma recvFragment_found {r : Fragment C × Context C} (h : (recvFragment ctx packet : Outcome Empty _) = .ok r) :
    Found ctx packet r := by
  obtain ⟨⟨socketId, idx⟩, hread, h⟩ := bind_eq_ok.mp h
  cases socketId with
  | none =>
    cases h
    exact .idle
  | some socketId =>
    dsimp only at h
    by_cases hreserved : socketId ≤ socketIdReservedMax
    swap
    · rw [if_neg hreserved] at h
      cases h
      exact .data _ _
    rw [if_pos hreserved, recvReserved] at h
    by_cases hlen : packet.length < handshakeNoLen
    · rw [if_pos hlen] at h
      cases h
      exact .idle
    by_cases hknown : socketId > socketIdConfirmMessage
    · rw [if_neg hlen, if_pos hknown] at h
      cases h
      exact .idle
    have hi := not_lt.mp hlen
    rw [if_neg hlen, if_neg hknown, slice_ok (Nat.zero_le _) hi, ok_bind, List.drop_zero] at h
    dsimp only at h
    have ha : Addresses packet socketId (fromBe (packet.take handshakeNoLen)) := ⟨⟨idx, hread⟩, not_lt.mp hknown, hi, rfl⟩
    generalize fromBe (packet.take handshakeNoLen) = no at h ha
    cases htab : ctx.handshakeTable no with
    | none =>
      rw [htab] at h
      dsimp only at h
      by_cases hinit : socketId ≠ socketIdInitMessage
      · rw [if_pos hinit] at h
        cases h
        exact .idle
      rw [if_neg hinit] at h
      rw [not_not.mp hinit] at ha
      rcases firstFragment_cases h with rfl | ⟨d, rfl⟩ | ⟨m, rfl⟩
      · exact .idle
      · exact .started ha htab
      · exact .whole ha htab
    | some entry =>
      rw [htab] at h
      dsimp only at h
      cases hw : entry.waiting with
      | none =>
        rw [hw] at h
        cases h
        exact .idle
      | some w =>
        obtain ⟨pending, o, keep⟩ := w
        rw [hw] at h
        cases o with
        | none =>
          rcases firstFragment_cases h with rfl | ⟨d, rfl⟩ | ⟨m, rfl⟩
          · exact .idle
          · exact .kept ha htab hw
          · exact .completed ha htab hw
        | some d =>
          obtain ⟨⟨result, d', i⟩, -, h⟩ := bind_eq_ok.mp h
          cases result with
          | ok m =>
            cases h
            exact .completed ha htab hw
          | error e =>
            cases h
            exact .kept ha htab hw

lemma createPayload_fresh {payload : Bytes} {id : ℕ} (h : (createPayload ctx env : Outcome ε _) = .ok (payload, id, ctx')) :
    ctx.socketTable id = none ∧ ctx' = ctx.setSocket id (some none) := by
  refine ⟨?_, createPayload_inv h⟩
  unfold createPayload at h
  split at h
  · rename_i id' hfind
    cases h
    simpa using List.find?_some hfind
  · cases h

lemma addNo_eq_ok {a b c : ℕ} (h : (addNo a b : Outcome ε ℕ) = .ok c) : c = a + b := by
  unfold addNo at h
  split at h
  · cases h
    rfl
  · cases h

lemma openHandshake_effect {random : ℕ} (hr : random < 2 ^ 128)
    (hfresh : ctx.handshakeTable (random >>> 8 + handshakeNoSocketIdInc) = none)
    (h : (openHandshake ctx env random : Outcome ε _) = .ok ctx') : Effect P ctx ctx' := by
  simp only [openHandshake, bind_eq_ok, ok_inj] at h
  obtain ⟨replyNo, hno, ⟨payload, id, c⟩, hpay, o, -, ⟨m, state⟩, -, rfl⟩ := h
  obtain rfl := addNo_eq_ok hno
  obtain ⟨hid, rfl⟩ := createPayload_fresh hpay
  have hlt : random >>> 8 < handshakeNoSocketIdInc := by
    rw [Nat.shiftRight_eq_div_pow, handshakeNoSocketIdInc, Nat.one_shiftLeft]
    omega
  exact .opened hlt hid hfresh

lemma setSocket_undo {id : ℕ} {socket : Option (Option Socket)} (h : ctx.socketTable id = none) :
    (ctx.setSocket id socket).setSocket id none = ctx := by
  simp only [setSocket, Function.update_idem]
  rw [← h, Function.update_eq_self]

lemma recvInitMessage_effect (ha : ctx.AwaitsInit P no)
    (h : (recvInitMessage (ctx.setEntry no .coolDown) env no message : Outcome ε _) = .ok ctx') : Effect P ctx ctx' := by
  simp only [recvInitMessage, bind_eq_ok] at h
  obtain ⟨decoded, -, h⟩ := h
  cases decoded with
  | error e =>
    cases h
    exact .initFailed ha
  | ok init =>
    simp only [bind_eq_ok] at h
    obtain ⟨⟨payload, id, c⟩, hpay, encoded, -, h⟩ := h
    obtain ⟨hid, rfl⟩ := createPayload_fresh hpay
    change (ctx.consume no (.processInitialize no)).socketTable id = none at hid
    have hfailed : Effect P ctx (((ctx.consume no (.processInitialize no)).setSocket id (some none)).setSocket id none) := by
      rw [setSocket_undo hid]
      exact .initFailed ha
    rcases encoded with e | _ | ⟨m, state⟩
    · cases h
      exact hfailed
    · cases h
      exact .initComplete ha hid
    · simp only [bind_eq_ok] at h
      obtain ⟨replyNo, hreply, confirmNo, hconfirm, h⟩ := h
      obtain rfl := addNo_eq_ok hreply
      obtain rfl := addNo_eq_ok hconfirm
      split at h
      · cases h
        exact hfailed
      · rename_i hvacant
        cases h
        -- the key of the message itself is taken, so the key of the confirm message is another one
        have hne : no + handshakeNoSocketIdInc + handshakeNoSocketIdInc ≠ no := by
          have hpos : 0 < handshakeNoSocketIdInc := by decide
          omega
        change Function.update ctx.handshakeTable no _ _ = none at hvacant
        rw [Function.update_of_ne hne] at hvacant
        exact .initSent ha hid hvacant

lemma dispatch_effect {entry : HandshakeEntry C} {pending : Pending C} {o : Option Desegmenter}
    {keep : Desegmenter → HandshakeEntry C} (htab : ctx.handshakeTable no = some entry)
    (hw : entry.waiting = some (pending, o, keep))
    (h : (dispatch (ctx.setEntry no .coolDown) env no pending message : Outcome ε _) = .ok ctx') : Effect P ctx ctx' := by
  cases entry with
  | coolDown => cases hw
  | responderRecv d =>
    cases hw
    exact recvInitMessage_effect (.inl ⟨d, htab⟩) h
  | initiatorSent id d m state =>
    cases hw
    simp only [dispatch, bind_eq_ok] at h
    obtain ⟨r, -, h⟩ := h
    cases r with
    | ok c =>
      cases h
      exact .complete htab rfl
    | error e =>
      cases h
      exact .failed htab rfl
  | responderSent id d m state =>
    cases hw
    simp only [dispatch, bind_eq_ok] at h
    obtain ⟨r, -, h⟩ := h
    cases r with
    | ok c =>
      cases h
      exact .complete htab rfl
    | error e =>
      cases h
      exact .failed htab rfl

lemma recvData_cases {socketId idx : ℕ} (h : (recvData ctx packet socketId idx : Outcome ε _) = .ok ctx') :
    ctx' = ctx ∨ ∃ plaintext, ctx' = ctx.log (.deliver socketId plaintext) := by
  unfold recvData at h
  split at h
  swap
  · cases h
    exact .inl rfl
  split at h
  · cases h
    exact .inl rfl
  obtain ⟨j, -, h⟩ := bind_eq_ok.mp h
  split at h
  · cases h
    exact .inl rfl
  simp only [bind_eq_ok] at h
  obtain ⟨bytes, -, rest, -, h⟩ := h
  split at h
  · cases h
    exact .inl rfl
  · cases h
    exact .inr ⟨_, rfl⟩

lemma recv_effect (hp : P packet) (h : (recv ctx env packet : Outcome Empty _) = .ok ctx') : Effect P ctx ctx' := by
  obtain ⟨⟨fragment, c⟩, hfrag, h⟩ := bind_eq_ok.mp h
  rcases recvFragment_found hfrag with _ | ⟨socketId, idx⟩ | ⟨ha, htab⟩ | ⟨ha, htab, hw⟩ | ⟨ha, htab⟩ | ⟨ha, htab, hw⟩
  · cases h
    exact .idle
  · rcases recvData_cases h with rfl | ⟨plaintext, rfl⟩
    · exact .idle
    · exact .deliver _ _
  · cases h
    exact .started hp ha htab
  · cases h
    exact .kept htab hw
  · exact recvInitMessage_effect (.inr ⟨⟨packet, hp, ha⟩, htab⟩) h
  · exact dispatch_effect htab hw h

/-- One call, which draws a fresh handshake number or receives a packet of `P`. -/
inductive Called (P : Bytes → Prop) (ctx : Context C) : Context C → Prop
  | opened {env : Env C} {random : ℕ} {ctx' : Context C} (hr : random < 2 ^ 128)
      (hfresh : ctx.handshakeTable (random >>> 8 + handshakeNoSocketIdInc) = none)
      (h : (openHandshake ctx env random : Outcome Empty _) = .ok ctx') : Called P ctx ctx'
  | received {env : Env C} {packet : Bytes} {ctx' : Context C} (hp : P packet)
      (h : (recv ctx env packet : Outcome Empty _) = .ok ctx') : Called P ctx ctx'
  -- a panic while a fragment is copied can leave anything in the memory of its message, and nothing else
  | torn {packet : Bytes} {panic : Panic} {socketId no : ℕ} {entry : HandshakeEntry C} {pending : Pending C}
      {d d' : Desegmenter} {keep : Desegmenter → HandshakeEntry C} (hp : P packet)
      (h : (recvFragment ctx packet : Outcome Empty _) = .panic panic) (ha : Addresses packet socketId no)
      (htab : ctx.handshakeTable no = some entry) (hw : entry.waiting = some (pending, some d, keep)) :
      Called P ctx (ctx.setEntry no (keep d'))

lemma Called.effect (h : Called P ctx ctx') : Effect P ctx ctx' := by
  cases h with
  | opened hr hfresh h => exact openHandshake_effect hr hfresh h
  | received hp h => exact recv_effect hp h
  | torn hp h ha htab hw => exact .kept htab hw

/-- No handshake was started yet. Sockets may be there. -/
structure New (ctx : Context C) : Prop where
  table : ∀ no, ctx.handshakeTable no = none
  sockets : ∀ id, ctx.socketTable id ≠ some none
  events : ctx.events = []

/-- The contexts that calls lead to. -/
def Served (P : Bytes → Prop) (ctx : Context C) : Prop :=
  ∃ ctx₀ : Context C, ctx₀.New ∧ Relation.ReflTransGen (Called P) ctx₀ ctx

lemma Served.invariant {I : Context C → Prop} (h : Served P ctx) (hnew : ∀ ctx, New ctx → I ctx)
    (hstep : ∀ ctx ctx', I ctx → Effect P ctx ctx' → I ctx') : I ctx := by
  obtain ⟨ctx₀, h₀, hrun⟩ := h
  induction hrun with
  | refl => exact hnew _ h₀
  | tail _ hcall ih => exact hstep _ _ ih hcall.effect

@[simp] lemma setEntry_table (k : ℕ) (entry : HandshakeEntry C) :
    (ctx.setEntry k entry).handshakeTable = Function.update ctx.handshakeTable k (some entry) := rfl

@[simp] lemma setSocket_table (id : ℕ) (socket : Option (Option Socket)) :
    (ctx.setSocket id socket).handshakeTable = ctx.handshakeTable := rfl

@[simp] lemma log_table (e : Event) : (ctx.log e).handshakeTable = ctx.handshakeTable := rfl

@[simp] lemma handshakeComplete_table (id : ℕ) : (ctx.handshakeComplete id).handshakeTable = ctx.handshakeTable := rfl

@[simp] lemma consume_table (k : ℕ) (e : Event) :
    (ctx.consume k e).handshakeTable = Function.update ctx.handshakeTable k (some .coolDown) := rfl

lemma AwaitsInit.ne_coolDown (h : ctx.AwaitsInit P no) : ctx.handshakeTable no ≠ some .coolDown := by
  rcases h with ⟨d, hd⟩ | ⟨-, hn⟩
  · rw [hd]
    nofun
  · rw [hn]
    nofun

section CoolDown

lemma coolDown_update {T : ℕ → Option (HandshakeEntry C)} {k : ℕ} {entry : Option (HandshakeEntry C)}
    (hno : T no = some .coolDown) (hk : T k ≠ some .coolDown) : Function.update T k entry no = some .coolDown := by
  rwa [Function.update_of_ne]
  rintro rfl
  exact hk hno

lemma coolDown_consume {T : ℕ → Option (HandshakeEntry C)} {k : ℕ} (hno : T no = some .coolDown) :
    Function.update T k (some .coolDown) no = some .coolDown := by
  rw [Function.update_apply]
  split
  · rfl
  · exact hno

lemma Effect.coolDown (h : Effect P ctx ctx') (hno : ctx.handshakeTable no = some .coolDown) :
    ctx'.handshakeTable no = some .coolDown := by
  cases h with
  | idle => exact hno
  | deliver id plaintext => exact hno
  | opened _ _ hfresh => exact coolDown_update hno (by simp [hfresh])
  | started _ _ h => exact coolDown_update hno (by simp [h])
  | kept h hw =>
    refine coolDown_update hno ?_
    rw [h, ne_eq, Option.some_inj]
    exact HandshakeEntry.ne_coolDown hw
  | initFailed _ => exact coolDown_consume hno
  | initComplete _ _ => exact coolDown_consume hno
  | initSent _ _ hvacant =>
    have hne : no ≠ _ := fun he => by
      rw [he, hvacant] at hno
      cases hno
    rw [setEntry_table, Function.update_of_ne hne]
    exact coolDown_consume hno
  | complete _ _ => exact coolDown_consume hno
  | failed _ _ => exact coolDown_consume hno

/-- The keys whose message was processed, one for each time. -/
def processed (ctx : Context C) : List ℕ := ctx.events.filterMap Event.key

@[simp] lemma setEntry_processed (k : ℕ) (entry : HandshakeEntry C) : (ctx.setEntry k entry).processed = ctx.processed := rfl

@[simp] lemma setSocket_processed (id : ℕ) (socket : Option (Option Socket)) :
    (ctx.setSocket id socket).processed = ctx.processed := rfl

@[simp] lemma handshakeComplete_processed (id : ℕ) : (ctx.handshakeComplete id).processed = ctx.processed := by
  simp [processed, handshakeComplete, log, Event.key]

lemma consume_processed {k : ℕ} {e : Event} (he : e.key = some k) : (ctx.consume k e).processed = ctx.processed ++ [k] := by
  simp [processed, consume, setEntry, log, he]

lemma Effect.processed (h : Effect P ctx ctx') : ctx'.processed = ctx.processed ∨ ∃ no,
    ctx'.processed = ctx.processed ++ [no] ∧ ctx.handshakeTable no ≠ some .coolDown ∧
      ctx'.handshakeTable no = some .coolDown := by
  cases h with
  | idle => exact .inl rfl
  | deliver id plaintext => exact .inl (by simp [Context.processed, log, Event.key])
  | opened _ _ _ => exact .inl rfl
  | started _ _ _ => exact .inl rfl
  | kept _ _ => exact .inl rfl
  | @initFailed no ha =>
    exact .inr ⟨no, consume_processed rfl, ha.ne_coolDown, by simp⟩
  | @initComplete no id ha _ =>
    refine .inr ⟨no, ?_, ha.ne_coolDown, by simp⟩
    rw [handshakeComplete_processed, setSocket_processed, consume_processed rfl]
  | @initSent no id m state ha _ hvacant =>
    refine .inr ⟨no, consume_processed rfl, ha.ne_coolDown, ?_⟩
    have hne : no ≠ no + handshakeNoSocketIdInc + handshakeNoSocketIdInc := by
      have hpos : 0 < handshakeNoSocketIdInc := by decide
      omega
    simp [Function.update_of_ne hne]
  | @complete no id entry h hid =>
    refine .inr ⟨no, ?_, ?_, by simp⟩
    · rw [handshakeComplete_processed, consume_processed (entry.event_key no)]
    · rw [h, ne_eq, Option.some_inj]
      exact HandshakeEntry.ne_coolDown_of_reserved hid
  | @failed no id entry h hid =>
    refine .inr ⟨no, ?_, ?_, by simp⟩
    · rw [setSocket_processed, consume_processed (entry.event_key no)]
    · rw [h, ne_eq, Option.some_inj]
      exact HandshakeEntry.ne_coolDown_of_reserved hid

/-- No message was processed twice, and the keys of those that were are on cool down. -/
structure Once (ctx : Context C) : Prop where
  nodup : ctx.processed.Nodup
  cold : ∀ no ∈ ctx.processed, ctx.handshakeTable no = some .coolDown

lemma Once.effect (h : ctx.Once) (he : Effect P ctx ctx') : ctx'.Once := by
  have hold : ∀ no ∈ ctx.processed, ctx'.handshakeTable no = some .coolDown := fun no hno => he.coolDown (h.cold no hno)
  rcases he.processed with hp | ⟨no, hp, hwarm, hcold⟩
  · exact ⟨hp ▸ h.nodup, hp ▸ hold⟩
  · have hnew : no ∉ ctx.processed := fun hno => hwarm (h.cold no hno)
    rw [← List.concat_eq_append] at hp
    refine ⟨?_, fun k hk => ?_⟩
    · rw [hp]
      exact h.nodup.concat hnew
    · rw [hp, List.concat_eq_append, List.mem_append, List.mem_singleton] at hk
      rcases hk with hk | rfl
      · exact hold k hk
      · exact hcold

lemma Served.once (h : Served P ctx) : ctx.Once := by
  refine h.invariant (fun ctx hnew => ?_) fun ctx ctx' hctx he => hctx.effect he
  have hnil : ctx.processed = [] := by rw [Context.processed, hnew.events, List.filterMap_nil]
  exact ⟨by simp [hnil], by simp [hnil]⟩

end CoolDown

lemma dropped_frame (h : (recvFragment ctx packet : Outcome Empty _) = .ok (.dropped, ctx')) :
    ctx'.socketTable = ctx.socketTable ∧ ctx'.events = ctx.events ∧
      ∀ no, no ≠ fromBe (packet.take handshakeNoLen) → ctx'.handshakeTable no = ctx.handshakeTable no := by
  have hfound := recvFragment_found h
  cases hfound with
  | idle => exact ⟨rfl, rfl, fun _ _ => rfl⟩
  | started ha _ =>
    refine ⟨rfl, rfl, fun no hno => ?_⟩
    rw [← ha.no_eq] at hno
    exact Function.update_of_ne hno ..
  | kept ha _ _ =>
    refine ⟨rfl, rfl, fun no hno => ?_⟩
    rw [← ha.no_eq] at hno
    exact Function.update_of_ne hno ..

/-- Whatever is received, no handshake number has two messages processed, a key on cool down is never
looked at again, and a fragment that completes nothing leaves the rest of the tables alone. -/
theorem processed_once (h : Served (fun _ => True) ctx) :
    ctx.processed.Nodup ∧
      (∀ no ctx', ctx.handshakeTable no = some .coolDown → Relation.ReflTransGen (Called fun _ => True) ctx ctx' →
        ctx'.handshakeTable no = some .coolDown) ∧
      ∀ env packet ctx', (recvFragment ctx packet : Outcome Empty _) = .ok (.dropped, ctx') →
        (recv ctx env packet : Outcome Empty _) = .ok ctx' ∧ ctx'.socketTable = ctx.socketTable ∧
          ctx'.events = ctx.events ∧
          ∀ no, no ≠ fromBe (packet.take handshakeNoLen) → ctx'.handshakeTable no = ctx.handshakeTable no := by
  refine ⟨h.once.nodup, fun no ctx' hno hrun => ?_, fun env packet ctx' hd => ⟨?_, dropped_frame hd⟩⟩
  · induction hrun with
    | refl => exact hno
    | tail _ hcall ih => exact hcall.effect.coolDown ih
  · rw [recv, hd, ok_bind]

/-- Surroundings in which the socket id 100 is drawn. -/
def quiet : Env (plain fun _ => Arr.zeros) where
  seed := ()
  socketIds := [100]
  secsSinceUnixEpoch := 0
  messageAlloc := ()
  bundleAlloc := ()
  payload _ := []
  in_range := by decide

lemma fresh_new : fresh.New := ⟨fun _ => rfl, nofun, rfl⟩

lemma recv_short : (recv fresh quiet (initFragment 1 0 [7]) : Outcome Empty _) =
    .ok (fresh.consume 0 (.processInitialize 0)) := by rfl

theorem processed_once_short : (fresh.consume 0 (.processInitialize 0)).processed = [0] ∧
    (fresh.consume 0 (.processInitialize 0)).processed.Nodup ∧
      (∀ no ctx', (fresh.consume 0 (.processInitialize 0)).handshakeTable no = some .coolDown →
        Relation.ReflTransGen (Called fun _ => True) (fresh.consume 0 (.processInitialize 0)) ctx' →
        ctx'.handshakeTable no = some .coolDown) ∧
      ∀ env packet ctx', (recvFragment (fresh.consume 0 (.processInitialize 0)) packet : Outcome Empty _) =
          .ok (.dropped, ctx') →
        (recv (fresh.consume 0 (.processInitialize 0)) env packet : Outcome Empty _) = .ok ctx' ∧
          ctx'.socketTable = (fresh.consume 0 (.processInitialize 0)).socketTable ∧
          ctx'.events = (fresh.consume 0 (.processInitialize 0)).events ∧
          ∀ no, no ≠ fromBe (packet.take handshakeNoLen) →
            ctx'.handshakeTable no = (fresh.consume 0 (.processInitialize 0)).handshakeTable no :=
  ⟨rfl, processed_once ⟨fresh, fresh_new, .single (.received trivial recv_short)⟩⟩

end Context

end Pqsnet.Session
