import Pqsnet.Session.Operations

/-! What the small changes keep holds throughout every run of a session that several threads use. -/

namespace Pqsnet.Session

open Checked Outcome SessionInner

variable {T : Type} {P : Allows} {s s' : SessionInner T} {U U' V V' R : Multiset Token} {i k docNo : ℕ}

/-- What every change keeps. -/
structure Coherent (s : SessionInner T) (U : Multiset Token) : Prop where
  numbered : Numbered s U
  populated : Populated s U
  linked : Linked s U
  counted : Counted s U
  closedOnce : ClosedOnce s
  flagged : Flagged s
  placed : Placed s

lemma Change.coherent (h : Change P s s' U U') (hinv : Coherent s U) : Coherent s' U' where
  numbered := h.numbered hinv.numbered
  populated := h.populated hinv.numbered hinv.populated
  linked := h.linked hinv.linked
  counted := h.counted hinv.numbered hinv.populated hinv.counted
  closedOnce := h.closedOnce hinv.populated hinv.closedOnce
  flagged := h.flagged hinv.flagged
  placed := h.placed hinv.placed

namespace Changes

lemma coherent (h : Changes P s U s' U') (hinv : Coherent s U) : Coherent s' U' := by
  induction h with
  | refl => exact hinv
  | tail _ hc ih => exact hc.coherent ih

lemma lent (h : Changes P s U s' U') (hinv : Coherent s U) (hsafe : P.Safe U) (hlent : Lent s U) : Lent s' U' := by
  -- what a step may do is safe as long as no buffer is lent on the way
  have hall : Coherent s' U' ∧ P.Safe U' ∧ Lent s' U' := by
    induction h with
    | refl => exact ⟨hinv, hsafe, hlent⟩
    | tail _ hc ih =>
      obtain ⟨hcoh, hsafe, hlent⟩ := ih
      exact ⟨hc.coherent hcoh, hc.safe hsafe, hc.lent hcoh.numbered hcoh.populated hcoh.linked hsafe hlent⟩
  exact hall.2.2

lemma keeps {Q : SessionInner T → Prop} (h : Changes P s U s' U')
    (hQ : ∀ {s s' : SessionInner T} {U U' : Multiset Token}, Change P s s' U U' → Q s → Q s') (hs : Q s) : Q s' := by
  induction h with
  | refl => exact hs
  | tail _ hc ih => exact hQ hc ih

lemma isSending (h : Changes P s U s' U') (docNo : ℕ) : s'.isSending docNo = s.isSending docNo :=
  h.keeps (Q := fun x => x.isSending docNo = s.isSending docNo) (fun hc hq => (hc.isSending docNo).trans hq) rfl

lemma counters (h : Changes P s U s' U') (hP : ¬ P.send) : s'.sendTotal = s.sendTotal ∧ s'.sendDocNo = s.sendDocNo :=
  h.keeps (Q := fun x => x.sendTotal = s.sendTotal ∧ x.sendDocNo = s.sendDocNo)
    (fun hc hq => ⟨(hc.counters hP).1.trans hq.1, (hc.counters hP).2.trans hq.2⟩) ⟨rfl, rfl⟩

end Changes

lemma Turn.framed (h : Turn P s V s' V') (R : Multiset Token) (hU : U = V + R) (hU' : U' = V' + R) : Turn P s U s' U' := by
  rw [hU, hU']
  exact h.frame R

/-- What a future amounts to. Before it has sent its document it has nothing. -/
def SendReplyFuture.tokens (fut : SendReplyFuture) : Multiset Token :=
  match fut.state with
  | .sending _ => 0
  | .sent reply => {.future reply.docNo fut.buffer}

def futureTokens (futures : List SendReplyFuture) : Multiset Token := (futures.map SendReplyFuture.tokens).sum

def threadTokens (threads : List (List Task)) : Multiset Token := (threads.map tasksTokens).sum

section Lists

lemma futureTokens_append (futures : List SendReplyFuture) (fut : SendReplyFuture) :
    futureTokens (futures ++ [fut]) = futureTokens futures + fut.tokens := by
  rw [futureTokens, List.map_append, List.sum_append, List.map_singleton, List.sum_singleton]
  rfl

lemma futureTokens_erase {futures : List SendReplyFuture} {fut : SendReplyFuture} (h : fut ∈ futures) :
    futureTokens futures = fut.tokens + futureTokens (futures.erase fut) :=
  (List.sum_map_erase SendReplyFuture.tokens h).symm

lemma handleTokens_erase {handles : List Channel} {c : Channel} (h : c ∈ handles) :
    handleTokens handles = {.handle c.docNo} + handleTokens (handles.erase c) :=
  Multiset.coe_eq_coe.mpr ((List.perm_cons_erase h).map _)

lemma countOf_handleTokens (handles : List Channel) (docNo : ℕ) :
    Token.countOf (Token.refersTo docNo) (handleTokens handles) = handles.countP (·.docNo = docNo) := by
  rw [Token.countOf, handleTokens, Multiset.coe_countP, List.countP_map]
  exact List.countP_congr fun c _ => by simp [Token.refersTo]

lemma threadTokens_append (threads : List (List Task)) (tasks : List Task) :
    threadTokens (threads ++ [tasks]) = threadTokens threads + tasksTokens tasks := by
  rw [threadTokens, List.map_append, List.sum_append, List.map_singleton, List.sum_singleton]
  rfl

lemma threadTokens_set {threads : List (List Task)} {tasks : List Task} (hk : threads[k]? = some tasks) :
    ∃ R, threadTokens threads = tasksTokens tasks + R ∧ ∀ tasks', threadTokens (threads.set k tasks') = tasksTokens tasks' + R := by
  have hset := sum_map_set tasksTokens hk
  refine ⟨threadTokens (threads.set k []), ?_, fun tasks' => ?_⟩
  · rw [add_comm]
    exact ((hset []).trans (add_zero _)).symm
  · refine add_right_cancel (b := tasksTokens tasks) ((hset tasks').trans ?_)
    rw [add_assoc, threadTokens, hset [], add_comm]
    exact congrArg _ (add_zero _).symm

end Lists

namespace Machine

variable {C : Machine T → ℕ → Prop} {m m' : Machine T}

/-- What the threads and the application have. -/
def hands (m : Machine T) : Multiset Token := threadTokens m.threads + handleTokens m.handles + futureTokens m.futures

def tokens (m : Machine T) : Multiset Token := m.session.tokens + m.hands

/-- What a step comes to: small changes that leave the calls alone, a call that begins, or one access of a call. -/
inductive Moved (C : Machine T → ℕ → Prop) (m m' : Machine T) : Prop
  | quiet {P : Allows} (hsend : ¬ P.send) (hdrop : ∀ docNo, P.drop docNo → ¬ P.lend ∧ C m docNo)
      (h : Turn P m.session m.hands m'.session m'.hands) (hcalls : m'.calls = m.calls)
      (hrecords : m'.drawn = m.drawn ∧ m'.given = m.given) : Moved C m m'
  | started {call : Call} (hplace : call.place = .start) (hfuture : ∀ fut, call.future = some fut → fut.tokens = 0)
      (hroom : m.HasRoom) (hs : m'.session = m.session) (hhands : m'.hands = m.hands) (hcalls : m'.calls = m.calls ++ [call])
      (hrecords : m'.drawn = m.drawn ∧ m'.given = m.given) : Moved C m m'
  | called {k : ℕ} {call : Call} {next : Call.Next} {s : SessionInner T} (hk : m.calls[k]? = some call)
      (h : (call.step m.session : Outcome Empty _) = .ok (next, s)) (hm : m' = m.advance k call next s) : Moved C m m'

/-- Where a call is after an access. -/
def reached : Call.Next → Place
  | .inl place => place
  | .inr _ => .returned

/-- What a thread may do that runs a task. -/
def mayLend : Allows := ⟨fun _ => False, True, False⟩

/-- What the application may do with the future of a document, if there is one. -/
def mayDrop (docNo : Option ℕ) : Allows := ⟨fun no => docNo = some no, False, False⟩

/-- What a call that sends may do. -/
def maySend : Allows := ⟨fun _ => False, False, True⟩

namespace Moved

lemma of_turn (h : Turn (mayDrop none) m.session m.hands m'.session m'.hands) (hcalls : m'.calls = m.calls)
    (hrecords : m'.drawn = m.drawn ∧ m'.given = m.given) : Moved C m m' :=
  .quiet not_false (fun docNo hdrop => absurd hdrop (Option.some_ne_none docNo).symm) h hcalls hrecords

lemma of_handled {found : Prop} {before packets : List PacketBuilder} {s : SessionInner T}
    (h : Handled found before m.session i docNo s packets) : Moved C m { m with session := s } :=
  .of_turn h.turn rfl ⟨rfl, rfl⟩

end Moved

lemma hands_resume {task : Task} {rest : List Task} {done : Done T} (hk : m.threads[k]? = some (task :: rest)) :
    ∃ R, m.hands = task.tokens + R ∧ (m.resume k rest done).hands = tasksTokens done.tasks + R := by
  obtain ⟨R, hbefore, hafter⟩ := threadTokens_set hk
  have habandon : tasksTokens (if done.invalid then [.abandon] else []) = 0 := by
    cases done.invalid <;> rfl
  refine ⟨tasksTokens rest + R + handleTokens m.handles + futureTokens m.futures, ?_, ?_⟩
  · rw [hands, hbefore, ← List.singleton_append, tasksTokens_append, tasksTokens_singleton]
    abel
  · rw [hands]
    change threadTokens (m.threads.set k _) + handleTokens m.handles + futureTokens m.futures = _
    rw [hafter, tasksTokens_append, tasksTokens_append, habandon]
    abel

lemma hands_spawn (done : Done T) : (m.spawn done).hands = tasksTokens done.tasks + m.hands := by
  rw [hands, hands]
  change threadTokens (m.threads ++ [done.tasks]) + handleTokens m.handles + futureTokens m.futures = _
  rw [threadTokens_append]
  abel

lemma hands_handle {c : Channel} (hc : c ∈ m.handles) :
    m.hands = {.handle c.docNo} + (threadTokens m.threads + handleTokens (m.handles.erase c) + futureTokens m.futures) := by
  rw [hands, handleTokens_erase hc]
  abel

lemma hands_future {fut : SendReplyFuture} (hf : fut ∈ m.futures) :
    m.hands = fut.tokens + (threadTokens m.threads + handleTokens m.handles + futureTokens (m.futures.erase fut)) := by
  rw [hands, futureTokens_erase hf]
  abel

lemma hands_polled {fut : SendReplyFuture} {reply : Channel} {r : SendReplyFuture.Polled} (s : SessionInner T)
    (hf : fut ∈ m.futures) (hs : fut.state = .sent reply) : (m.polled fut reply s r).hands =
      r.tokens reply fut.buffer + (threadTokens m.threads + handleTokens m.handles + futureTokens (m.futures.erase fut)) := by
  cases r with
  | pending =>
    change m.hands = _
    rw [hands_future hf, SendReplyFuture.tokens, hs]
    rfl
  | error e =>
    change threadTokens m.threads + handleTokens (m.handles ++ [reply]) + futureTokens (m.futures.erase fut) = _
    rw [handleTokens_append, SendReplyFuture.Polled.tokens]
    abel
  | ready len c =>
    change threadTokens m.threads + handleTokens (m.handles ++ [c, reply]) + futureTokens (m.futures.erase fut) = _
    rw [handleTokens_append, SendReplyFuture.Polled.tokens]
    abel

/-- Every step is made of small changes, or belongs to a call. -/
lemma Step.moved (h : Step C m m') (hinv : Coherent m.session m.tokens) : Moved C m m' := by
  cases h with
  | recvSeg f =>
    refine .of_turn (Turn.refl.framed 0 (add_zero _).symm ?_) rfl ⟨rfl, rfl⟩
    rw [hands, threadTokens_append, tasksTokens_singleton, Task.tokens, add_zero, add_zero]
    rfl
  | @run k task rest done hk h =>
    obtain ⟨R, hbefore, hafter⟩ := hands_resume hk
    have hle : m.session.tokens + task.tokens ≤ m.tokens := by
      rw [tokens, hbefore, ← add_assoc]
      exact Multiset.le_add_right _ _
    have hturn : Turn mayLend m.session task.tokens done.session (tasksTokens done.tasks) :=
      Task.turn trivial (hinv.numbered.mono hle) (hinv.linked.mono hle) h
    exact .quiet (P := mayLend) not_false (fun _ hdrop => hdrop.elim) (hturn.framed R hbefore hafter) rfl ⟨rfl, rfl⟩
  | takeReady hc h =>
    refine .of_turn ((Channel.turn_takeReady h).framed m.hands (zero_add _).symm ?_) rfl ⟨rfl, rfl⟩
    rw [hands, hands, handleTokens_append]
    abel
  | clone hc h =>
    refine .of_turn ((Channel.turn_clone h).framed _ (hands_handle hc) ?_) rfl ⟨rfl, rfl⟩
    rw [hands, handleTokens_append, handleTokens_erase hc]
    abel
  | drop hc h =>
    refine .of_turn ((Channel.turn_dropSection (.inl rfl) h).framed _ (hands_handle hc) ?_) rfl ⟨rfl, rfl⟩
    change threadTokens (m.threads ++ [_]) + handleTokens (m.handles.erase _) + futureTokens m.futures = _
    rw [threadTokens_append]
    abel
  | closeIf b hc h =>
    refine .of_turn ((Channel.turn_closeIf h).framed _ (hands_handle hc) ?_) rfl ⟨rfl, rfl⟩
    rw [hands_spawn, hands_handle hc]
    exact (add_assoc _ _ _).symm
  | trySend doc hc hroom => exact .started rfl (fun fut h => by cases h) hroom rfl rfl rfl ⟨rfl, rfl⟩
  | sendWithReplyBuffer doc buffer hc =>
    refine .of_turn (Turn.refl.framed 0 (add_zero _).symm ?_) rfl ⟨rfl, rfl⟩
    rw [hands, futureTokens_append, ← add_assoc]
    rfl
  | @pollSending fut doc hf hs hroom =>
    have hempty : fut.tokens = 0 := by rw [SendReplyFuture.tokens, hs]
    refine .started rfl (fun fut' h => ?_) hroom rfl ?_ rfl ⟨rfl, rfl⟩
    · cases h
      exact hempty
    · rw [hands_future hf, hempty, zero_add]
      rfl
  | @pollSent fut reply r s hf hs h =>
    have htokens : fut.tokens = {.future reply.docNo fut.buffer} := by rw [SendReplyFuture.tokens, hs]
    have hturn : Turn (mayDrop none) m.session fut.tokens s (r.tokens reply fut.buffer) := by
      rw [htokens]
      exact SendReplyFuture.turn_pollSent h
    refine .of_turn ?_ (by cases r <;> rfl) (by cases r <;> exact ⟨rfl, rfl⟩)
    have hs' : (m.polled fut reply s r).session = s := by cases r <;> rfl
    rw [hs']
    exact hturn.framed _ (hands_future hf) (hands_polled s hf hs)
  | @dropSending fut doc hf hs =>
    have hempty : fut.tokens = 0 := by rw [SendReplyFuture.tokens, hs]
    refine .of_turn (Turn.refl.framed 0 (add_zero _).symm ?_) rfl ⟨rfl, rfl⟩
    rw [hands_future hf, hempty, zero_add, add_zero]
    rfl
  | @dropSent fut reply done hf hs hC h =>
    have htokens : fut.tokens = {.future reply.docNo fut.buffer} := by rw [SendReplyFuture.tokens, hs]
    have hturn : Turn (mayDrop (some reply.docNo)) m.session fut.tokens done.session (tasksTokens done.tasks) := by
      rw [htokens]
      exact Channel.turn_dropSection (.inr ⟨fut.buffer, rfl, rfl⟩) h
    refine .quiet not_false (fun docNo hdrop => ?_) (hturn.framed _ (hands_future hf) ?_) rfl ⟨rfl, rfl⟩
    · cases hdrop
      exact ⟨not_false, hC⟩
    · change threadTokens (m.threads ++ [_]) + handleTokens m.handles + futureTokens (m.futures.erase fut) = _
      rw [threadTokens_append]
      abel
  | send hk h => exact .called hk h rfl
  | @sendDoc tx tx' docNo htx h =>
    have hleads : Leads (Handled True tx.packets tx.session (tx.session.docIdx docNo) docNo) (SessionInner.sendDoc tx docNo) := leads_sendDoc
    rw [h, htx] at hleads
    exact .of_handled hleads
  | @lastDoc tx out docNo htx h =>
    have hleads : Leads (Handled True tx.packets tx.session (tx.session.docIdx docNo) docNo) (SessionInner.sendDoc tx docNo) := leads_sendDoc
    rw [h, htx] at hleads
    exact .of_handled hleads
  | @sendRetry tx tx' docNo htx h =>
    have hleads : Leads (Handled False tx.packets tx.session (m.session.sendIdx docNo) docNo) _ := leads_sendRetry False.elim
    rw [h, htx] at hleads
    exact .of_handled hleads
  | @lastRetry tx out docNo htx h =>
    have hleads : Leads (Handled False tx.packets tx.session (m.session.sendIdx docNo) docNo) _ := leads_sendRetry False.elim
    rw [h, htx] at hleads
    exact .of_handled hleads

section Advance

variable {call : Call} {next : Call.Next}

lemma hands_answer (hfuture : ∀ fut, call.future = some fut → fut.tokens = 0) (r : Except TrySendError ℕ) :
    (m.answer call r).hands = call.gives (.inr r) + m.hands := by
  unfold answer
  split
  · split
    · rename_i fut hf
      change threadTokens m.threads + handleTokens m.handles + futureTokens (m.futures ++ [_]) = _
      rw [futureTokens_append, SendReplyFuture.tokens, hands, Call.gives, hf]
      abel
    · rename_i hf
      change threadTokens m.threads + handleTokens (m.handles ++ [_]) + futureTokens m.futures = _
      rw [handleTokens_append, handleTokens_singleton, hands, Call.gives, hf]
      abel
  · split
    · rename_i fut hf
      change threadTokens m.threads + handleTokens m.handles + futureTokens (m.futures ++ [fut]) = 0 + m.hands
      rw [futureTokens_append, hfuture fut hf, add_zero, zero_add]
      rfl
    · exact (zero_add _).symm

lemma hands_advance (hfuture : ∀ fut, call.future = some fut → fut.tokens = 0) (s : SessionInner T) :
    (m.advance k call next s).hands = call.gives next + m.hands := by
  cases next with
  | inl place => exact (zero_add _).symm
  | inr r => exact hands_answer hfuture r

lemma session_answer (r : Except TrySendError ℕ) : (m.answer call r).session = m.session := by
  unfold answer
  split
  · split <;> rfl
  · split <;> rfl

lemma session_advance (s : SessionInner T) : (m.advance k call next s).session = s := by
  cases next with
  | inl place => rfl
  | inr r => exact session_answer r

lemma calls_advance (s : SessionInner T) : (m.advance k call next s).calls = m.calls.set k { call with place := reached next } := by
  cases next <;> rfl

lemma mem_calls_advance {s : SessionInner T} {x : Call} (hx : x ∈ (m.advance k call next s).calls) :
    x ∈ m.calls ∨ x = { call with place := reached next } := by
  rw [calls_advance] at hx
  exact List.mem_or_eq_of_mem_set hx

end Advance

/-- What holds of a machine between two steps. -/
structure Sound (m : Machine T) : Prop where
  coherent : Coherent m.session m.tokens
  next : m.session.isSending m.session.sendDocNo
  locks : ∀ call ∈ m.calls, ∀ docNo, call.place = .lock docNo → m.session.isSending docNo
  futures : ∀ call ∈ m.calls, ∀ fut, call.future = some fut → fut.tokens = 0

namespace Moved

lemma turn (h : Moved C m m') (hm : m.Sound) :
    ∃ P : Allows, (∀ docNo, P.drop docNo → ¬ P.lend ∧ C m docNo) ∧ Turn P m.session m.hands m'.session m'.hands := by
  cases h with
  | quiet hsend hdrop h hcalls hrecords => exact ⟨_, hdrop, h⟩
  | started hplace hfuture hroom hs hhands hcalls hrecords =>
    rw [hs, hhands]
    exact ⟨mayDrop none, fun docNo hdrop => absurd hdrop (Option.some_ne_none docNo).symm, Turn.refl⟩
  | @called k call next s hk h hm' =>
    have hmem := List.mem_of_getElem? hk
    have hturn : Turn maySend m.session 0 s (call.gives next) := Call.turn_step trivial (hm.locks call hmem) h
    have hs : m'.session = s := hm' ▸ session_advance s
    refine ⟨maySend, fun _ hdrop => hdrop.elim, hs ▸ hturn.framed m.hands (zero_add _).symm ?_⟩
    rw [hm', hands_advance (hm.futures call hmem)]

lemma next (h : Moved C m m') (hm : m.Sound) : m.session.isSending m'.session.sendDocNo := by
  cases h with
  | quiet hsend hdrop h hcalls hrecords =>
    rw [(Changes.counters h hsend).2]
    exact hm.next
  | started hplace hfuture hroom hs hhands hcalls hrecords =>
    rw [hs]
    exact hm.next
  | called hk h hm' =>
    rw [hm', session_advance]
    cases Call.accessed h with
    | draw hp =>
      rw [Call.fetchAdd, isSending_add_two]
      exact hm.next
    | enter | undo | refuse | accept | weigh | unload | skip | take => exact hm.next

lemma locks (h : Moved C m m') (hm : m.Sound) {call : Call} (hcall : call ∈ m'.calls) (hp : call.place = .lock docNo) :
    m.session.isSending docNo := by
  cases h with
  | quiet hsend hdrop h hcalls hrecords => exact hm.locks call (hcalls ▸ hcall) docNo hp
  | started hplace hfuture hroom hs hhands hcalls hrecords =>
    rw [hcalls] at hcall
    obtain hcall | hcall := List.mem_append.mp hcall
    · exact hm.locks call hcall docNo hp
    · rw [List.mem_singleton.mp hcall, hplace] at hp
      cases hp
  | called hk h hm' =>
    rw [hm'] at hcall
    obtain hcall | rfl := mem_calls_advance hcall
    · exact hm.locks call hcall docNo hp
    · cases Call.accessed h with
      | draw hp' =>
        cases hp
        exact hm.next
      | enter | weigh =>
        simp only [reached, Call.within] at hp
        split_ifs at hp
      | undo | refuse | accept | unload | skip | take => cases hp

lemma sound (h : Moved C m m') (hm : m.Sound) : m'.Sound := by
  obtain ⟨P, -, hturn⟩ := h.turn hm
  have hside := Changes.isSending hturn
  refine ⟨Changes.coherent hturn hm.coherent, ?_, fun call hcall docNo hp => ?_, fun call hcall => ?_⟩
  · rw [hside]
    exact h.next hm
  · rw [hside]
    exact h.locks hm hcall hp
  · cases h with
    | quiet hsend hdrop h hcalls hrecords => exact hm.futures call (hcalls ▸ hcall)
    | started hplace hfuture hroom hs hhands hcalls hrecords =>
      rw [hcalls] at hcall
      obtain hcall | hcall := List.mem_append.mp hcall
      · exact hm.futures call hcall
      · rwa [List.mem_singleton.mp hcall]
    | called hk h hm' =>
      rw [hm'] at hcall
      obtain hcall | rfl := mem_calls_advance hcall
      · exact hm.futures call hcall
      · have hold := hm.futures _ (List.mem_of_getElem? hk)
        exact hold

end Moved

/-- Any number of steps. -/
abbrev Run (C : Machine T → ℕ → Prop) : Machine T → Machine T → Prop := Relation.ReflTransGen (Step C)

lemma Run.sound (h : Run C m m') (hm : m.Sound) : m'.Sound := by
  induction h with
  | refl => exact hm
  | tail _ hstep ih => exact (hstep.moved ih.coherent).sound ih

lemma Run.keeps {Q : SessionInner T → Prop} (h : Run C m m') (hm : m.Sound)
    (hQ : ∀ {P : Allows} {s s' : SessionInner T} {U U' : Multiset Token}, Change P s s' U U' → Q s → Q s') (hs : Q m.session) :
    Q m'.session := by
  induction h with
  | refl => exact hs
  | tail hrun hstep ih =>
    have hsound := Run.sound hrun hm
    obtain ⟨P, -, hturn⟩ := (hstep.moved hsound.coherent).turn hsound
    exact Changes.keeps hturn hQ ih

/-- A session that nobody has used yet, but for the channels that are open from the start. The application has handles to
these. -/
structure Initial (m : Machine T) : Prop where
  idle : m.threads = [] ∧ m.calls = [] ∧ m.futures = [] ∧ m.drawn = [] ∧ m.given = [] ∧ m.session.scheduled = []
  parity : m.session.isSending m.session.sendDocNo
  recv : ∀ (i : ℕ) (e : RecvDocMutable), m.session.recvTable[i]? = some e → ¬ e.doc.isActive ∧ e.adoptableOrphans = [] ∧
    ∀ c, e.channel = some c → c.readyDocs = [] ∧ c.replyBuffer = .none ∧ ¬ e.needsSendControl ∧
      ¬ m.session.isSending e.docNo ∧ i = m.session.recvIdx e.docNo
  send : ∀ (i : ℕ) (e : SendDocMutable), m.session.sendTable[i]? = some e →
    ∀ c, e.channel = some c → c.readyDocs = [] ∧ c.replyBuffer = .none ∧ ¬ e.needsSendClose ∧ e.doc.isSome ∧
      m.session.isSending e.docNo ∧ i = m.session.sendIdx e.docNo
  handles : ∀ c ∈ m.handles, ∃ channel, m.session.channelOf c.docNo = some channel ∧
    m.handles.countP (·.docNo = c.docNo) ≤ channel.refCount

namespace Initial

lemma held (hm : m.Initial) : m.session.held = 0 := by
  rw [SessionInner.held, List.sum_eq_zero, List.sum_eq_zero, add_zero]
  · intro x hx
    obtain ⟨e, he, rfl⟩ := List.mem_map.mp hx
    obtain ⟨i, he⟩ := List.getElem?_of_mem he
    rw [SendDocMutable.held]
    cases hc : e.channel with
    | none => rfl
    | some c =>
      obtain ⟨hready, hreply, -⟩ := hm.send i e he c hc
      rw [channelHeld, OpenChannel.held, hready, hreply]
      rfl
  · intro x hx
    obtain ⟨e, he, rfl⟩ := List.mem_map.mp hx
    obtain ⟨i, he⟩ := List.getElem?_of_mem he
    obtain ⟨-, horphans, hchannel⟩ := hm.recv i e he
    rw [RecvDocMutable.held, horphans]
    cases hc : e.channel with
    | none => rfl
    | some c =>
      obtain ⟨hready, hreply, -⟩ := hchannel c hc
      rw [channelHeld, OpenChannel.held, hready, hreply]
      rfl

lemma tokens (hm : m.Initial) : m.tokens = handleTokens m.handles := by
  have hlent : m.session.lent = 0 := by
    rw [SessionInner.lent]
    apply List.sum_eq_zero
    intro x hx
    obtain ⟨e, he, rfl⟩ := List.mem_map.mp hx
    obtain ⟨i, he⟩ := List.getElem?_of_mem he
    cases hdoc : e.doc with
    | active doc => exact absurd (by rw [hdoc]; rfl) (hm.recv i e he).1
    | activeReserved | finishing | finAck | finParentClose => rfl
  rw [Machine.tokens, SessionInner.tokens, hm.held, hlent, hands, hm.idle.1, hm.idle.2.2.1]
  change 0 + 0 + (0 + handleTokens m.handles + 0) = _
  rw [add_zero, zero_add, zero_add, add_zero]

lemma mem_tokens {t : Token} (hm : m.Initial) (ht : t ∈ m.tokens) : ∃ c ∈ m.handles, t = .handle c.docNo := by
  rw [hm.tokens] at ht
  obtain ⟨c, hc, rfl⟩ := List.mem_map.mp (Multiset.mem_coe.mp ht)
  exact ⟨c, hc, rfl⟩

lemma not_mem_tokens {t : Token} (hm : m.Initial) (ht : ∀ docNo, t ≠ .handle docNo) : t ∉ m.tokens := fun h => by
  obtain ⟨c, -, rfl⟩ := hm.mem_tokens h
  exact ht c.docNo rfl

lemma channelOf (hm : m.Initial) (h : .handle docNo ∈ m.tokens) :
    ∃ channel, m.session.channelOf docNo = some channel ∧ m.handles.countP (·.docNo = docNo) ≤ channel.refCount := by
  obtain ⟨c, hc, heq⟩ := hm.mem_tokens h
  cases heq
  exact hm.handles c hc

lemma numbered (hm : m.Initial) : Numbered m.session m.tokens := by
  have hnot {t : Token} (ht : ∀ docNo, t ≠ .handle docNo) := hm.not_mem_tokens ht
  refine ⟨fun docNo e hl he => ?_, fun t ht docNo h => ?_, fun docNo e he hno => ?_, fun docNo h => ?_, fun docNo => ?_,
    fun docNo range h => ?_⟩
  · obtain h | h | ⟨h, hside⟩ := hl
    · exact absurd h (hnot (by simp))
    · exact absurd h (hnot (by simp))
    · obtain ⟨channel, hc, -⟩ := hm.channelOf h
      obtain ⟨-, -, -, -, hside', -⟩ | ⟨x, hx, hno, -⟩ := channelOf_cases hc
      · exact absurd hside' hside
      · cases he.symm.trans hx
        exact hno.ge
  · obtain ⟨c, -, rfl⟩ := hm.mem_tokens ht
    cases h
  · have hcopy : .copy docNo ∉ m.tokens := hnot (by simp)
    exact ⟨(Multiset.count_eq_zero_of_notMem hcopy).trans_le (Nat.zero_le 1), fun h => absurd h hcopy⟩
  · exact absurd h (hnot (by simp))
  · exact (Multiset.count_eq_zero_of_notMem (hnot (by simp))).trans_le (Nat.zero_le 1)
  · exact absurd h (hnot (by simp))

lemma populated (hm : m.Initial) : Populated m.session m.tokens := by
  intro docNo hh hside
  obtain h | ⟨range, h⟩ := hh
  · obtain ⟨channel, hc, -⟩ := hm.channelOf h
    obtain ⟨e, he, hno, hch, -⟩ | ⟨-, -, -, -, hside', -⟩ := channelOf_cases hc
    · obtain ⟨-, -, -, hdoc, -⟩ := hm.send _ e he channel hch
      exact ⟨e, he, hno, hdoc⟩
    · exact absurd hside hside'
  · exact absurd h (hm.not_mem_tokens (by simp))

lemma linked (hm : m.Initial) : Linked m.session m.tokens := by
  refine ⟨fun docNo range h => ?_, fun docNo => ?_, fun i e he c hc => ?_, fun i e he c hc hne => ?_⟩
  · exact absurd h (hm.not_mem_tokens (by simp))
  · refine le_of_eq_of_le (Token.countOf_eq_zero.mpr fun t ht => ?_) (Nat.zero_le 1)
    obtain ⟨c, -, rfl⟩ := hm.mem_tokens ht
    exact Bool.false_ne_true
  · exact ((hm.recv i e he).2.2 c hc).2.1
  · exact absurd (hm.send i e he c hc).2.1 hne

lemma counted (hm : m.Initial) : Counted m.session m.tokens := by
  intro docNo c hc
  have hcount : Token.countOf (Token.refersTo docNo) m.tokens = m.handles.countP (·.docNo = docNo) := by
    rw [hm.tokens, countOf_handleTokens]
  obtain hzero | hpos := Nat.eq_zero_or_pos (m.handles.countP (·.docNo = docNo))
  · rw [hcount, hzero]
    exact Nat.zero_le _
  · obtain ⟨c', hc', hno⟩ := List.countP_pos_iff.mp hpos
    obtain ⟨channel, hchannel, hle⟩ := hm.handles c' hc'
    rw [of_decide_eq_true hno] at hchannel hle
    cases hc.symm.trans hchannel
    rwa [hcount]

lemma coherent (hm : m.Initial) : Coherent m.session m.tokens where
  numbered := hm.numbered
  populated := hm.populated
  linked := hm.linked
  counted := hm.counted
  closedOnce := by
    have hnil : m.session.closes = [] := by
      rw [closes, hm.idle.2.2.2.2.2]
      rfl
    rw [ClosedOnce, hnil]
    exact ⟨List.nodup_nil, fun _ h => absurd h List.not_mem_nil⟩
  flagged := by
    refine ⟨fun i e he hflag => ?_, fun i e he hflag => ?_⟩
    · exact Option.eq_none_iff_forall_ne_some.mpr fun c hc => ((hm.recv i e he).2.2 c hc).2.2.1 hflag
    · exact Option.eq_none_iff_forall_ne_some.mpr fun c hc => (hm.send i e he c hc).2.2.1 hflag
  placed := by
    refine ⟨fun i e he hopen => ?_, fun i e he hopen => ?_⟩
    · obtain ⟨c, hc⟩ := Option.isSome_iff_exists.mp hopen
      exact ((hm.recv i e he).2.2 c hc).2.2.2
    · obtain ⟨c, hc⟩ := Option.isSome_iff_exists.mp hopen
      exact (hm.send i e he c hc).2.2.2.2

lemma sound (hm : m.Initial) : m.Sound := by
  have hnone {call : Call} : call ∉ m.calls := by
    rw [hm.idle.2.1]
    exact List.not_mem_nil
  exact ⟨hm.coherent, hm.parity, fun _ h => absurd h hnone, fun _ h => absurd h hnone⟩

end Initial

/-- A machine that steps of the kind that `C` allows can lead to. -/
def Reachable (C : Machine T → ℕ → Prop) (m : Machine T) : Prop := ∃ m₀ : Machine T, m₀.Initial ∧ Run C m₀ m

lemma Reachable.sound (hm : m.Reachable C) : m.Sound := by
  obtain ⟨m₀, hm₀, hrun⟩ := hm
  exact Run.sound hrun hm₀.sound

end Machine

end Pqsnet.Session
