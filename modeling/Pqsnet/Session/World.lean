import Pqsnet.Session.PassMoves

/-! Runs of a session together with the application that uses it. The calls come one after another. -/

namespace Pqsnet.Session

open Checked Outcome SessionInner

variable {T : Type}

/-- A session, and what the application has of it. -/
structure World (T : Type) where
  session : SessionInner T
  handles : List Channel
  futures : List SendReplyFuture
  deriving DecidableEq

/-- A call. To close a channel is to close it if `true`. -/
inductive Action (T : Type)
  | recvSeg (packet : Bytes) (variant : UInt8) (i : ℕ)
  | tryRecv (c : Channel)
  | pollRecv (c : Channel)
  | clone (c : Channel)
  | drop (c : Channel)
  | closeIf (c : Channel) (b : Bool)
  | trySend (c : Channel) (doc : Bytes)
  | sendWithReplyBuffer (c : Channel) (doc : Bytes) (buffer : BufRange)
  | pollReply (fut : SendReplyFuture)
  | dropReply (fut : SendReplyFuture)
  | transmit (pass : Pass T)
  | acknowledged (socketUid : UInt32) (variant : UInt8) (packet : Bytes) (i : ℕ)

/-- Why a run cannot go on: the session was abandoned, or the application does not have what it would use. -/
inductive Halt
  | abandoned
  | notThere
  deriving DecidableEq

namespace World

/-- Only with a live handle. -/
def holding {α β : Type} [DecidableEq α] (a : α) (as : List α) (x : Outcome Halt β) : Outcome Halt β :=
  if a ∈ as then x else .err .notThere

def received {α : Type} : Except ChannelError (Option (α × Channel)) → List Channel
  | .ok (some (_, c)) => [c]
  | _ => []

def polled {α : Type} : Option (Except ChannelError (α × Channel)) → List Channel
  | some (.ok (_, c)) => [c]
  | _ => []

def replied : SendReplyFuture.Polled → List Channel
  | .ready _ c => [c]
  | _ => []

def step [LT T] [DecidableLT T] (w : World T) : Action T → Outcome Halt (World T)
  | .recvSeg packet variant i =>
    if variantSegMin ≤ variant ∧ variant ≤ variantSegMax then do
      match ← SessionInner.recvSeg packet w.session variant i with
      | (some _, s) => .ok { w with session := s }
      | (none, _) => .err .abandoned
    else .err .notThere
  | .tryRecv c => holding c w.handles do
    let (ret, s) ← c.tryRecv w.session
    .ok { w with session := s, handles := w.handles ++ received ret }
  | .pollRecv c => holding c w.handles do
    let (ret, s) ← c.pollRecv w.session
    .ok { w with session := s, handles := w.handles ++ polled ret }
  | .clone c => holding c w.handles do
    let (c', s) ← c.clone w.session
    .ok { w with session := s, handles := w.handles ++ [c'] }
  | .drop c => holding c w.handles do
    let s ← c.drop w.session
    .ok { w with session := s, handles := w.handles.erase c }
  | .closeIf c b => holding c w.handles do
    let (_, s) ← c.closeIf b w.session
    .ok { w with session := s }
  | .trySend c doc => holding c w.handles do
    let (ret, s) ← c.trySend doc w.session
    .ok { w with session := s, handles := w.handles ++ ret.toOption.toList }
  | .sendWithReplyBuffer c doc buffer => holding c w.handles (.ok { w with futures := w.futures ++ [⟨c, buffer, .sending doc⟩] })
  | .pollReply fut => holding fut w.futures do
    let (ret, fut', s) ← fut.poll w.session
    .ok { w with session := s, handles := w.handles ++ replied ret, futures := w.futures.erase fut ++ [fut'] }
  | .dropReply fut => holding fut w.futures do
    let s ← fut.drop w.session
    .ok { w with session := s, futures := w.futures.erase fut }
  | .transmit pass => do
    let out ← SessionInner.transmit w.session pass
    .ok { w with session := out.session }
  | .acknowledged socketUid variant packet i => do
    let (_, s) ← w.session.acknowledged socketUid variant packet i
    .ok { w with session := s }

def run [LT T] [DecidableLT T] : List (Action T) → World T → Outcome Halt (World T)
  | [], w => .ok w
  | a :: as, w => do
    let w ← w.step a
    run as w

/-- A session in which no document was received yet. The channels that are open from the start are empty. -/
structure Initial (w : World T) : Prop where
  recvPos : 0 < w.session.recvTable.length
  sendPos : 0 < w.session.sendTable.length
  parity : w.session.isSending w.session.sendDocNo
  total : w.session.recvBytesTotal = 0
  ledger : w.session.ledger = ⟨[], [], [], []⟩
  recv : ∀ e ∈ w.session.recvTable, ¬ e.doc.isActive ∧ e.adoptableOrphans = [] ∧ e.orphansExpectedParentNo = none ∧
    ∀ c, e.channel = some c → c.readyDocs = [] ∧ c.replyBuffer = .none
  send : ∀ e ∈ w.session.sendTable, ∀ c, e.channel = some c → c.readyDocs = [] ∧ c.replyBuffer = .none
  handles : ∀ c ∈ w.handles, w.session.Settled c.docNo
  futures : w.futures = []

/-- The channel of a document holds a reply that nobody has taken. -/
def HoldsReply (s : SessionInner T) (docNo : ℕ) (channel : OpenChannel) : Prop :=
  s.channelOf docNo = some channel ∧ ∃ len reply, channel.replyBuffer = .recv len reply

/-- A call that closes a channel which holds a reply. -/
def ClosesReply (w : World T) : Action T → Prop
  | .drop c => ∃ channel, HoldsReply w.session c.docNo channel ∧ channel.refCount = 1
  | .closeIf c b => b ∧ c.checkBasic w.session = .ok () ∧ ∃ channel, HoldsReply w.session c.docNo channel
  | .dropReply fut => ∃ reply channel, fut.state = .sent reply ∧ HoldsReply w.session reply.docNo channel ∧ channel.refCount = 1
  | _ => False

/-- A segment that is written into a reply buffer. -/
def UsesReplyBuffer (w : World T) : Action T → Prop
  | .recvSeg packet variant i => ∃ f j, SegFrame.parse w.session.debugAssertions variant packet i = .ok (f, j) ∧
    w.session.UsesReplyBuffer f
  | _ => False

/-- What holds of a session between two calls, and of what the application has. -/
structure Ok (w : World T) : Prop where
  session : SessionInner.Inv w.session ⟨0, none⟩
  handles : ∀ c ∈ w.handles, w.session.Settled c.docNo
  futures : ∀ fut ∈ w.futures, fut.Settled w.session

variable {w w' : World T} {P : Permits}

lemma Initial.held (hw : w.Initial) : w.session.held = 0 := by
  rw [SessionInner.held, List.sum_eq_zero, List.sum_eq_zero, add_zero]
  · intro x hx
    obtain ⟨e, he, rfl⟩ := List.mem_map.mp hx
    rw [SendDocMutable.held]
    cases hc : e.channel with
    | none => rfl
    | some c =>
      rw [channelHeld, OpenChannel.held, (hw.send e he c hc).1, (hw.send e he c hc).2]
      rfl
  · intro x hx
    obtain ⟨e, he, rfl⟩ := List.mem_map.mp hx
    obtain ⟨-, horphans, -, hchannel⟩ := hw.recv e he
    rw [RecvDocMutable.held, horphans]
    cases hc : e.channel with
    | none => rfl
    | some c =>
      rw [channelHeld, OpenChannel.held, (hchannel c hc).1, (hchannel c hc).2]
      rfl

lemma Initial.receiving (hw : w.Initial) : w.session.receiving = 0 := by
  rw [SessionInner.receiving]
  apply List.sum_eq_zero
  intro x hx
  obtain ⟨e, he, rfl⟩ := List.mem_map.mp hx
  exact activeLen_of_not_isActive (hw.recv e he).1

lemma Initial.ok (hw : w.Initial) : w.Ok := by
  have hheld := hw.held
  refine ⟨⟨⟨hw.recvPos, hw.sendPos, hw.parity, fun i e he => ?_⟩, fun d hd => ?_, ⟨?_, ?_⟩, fun u hu => ?_⟩, hw.handles,
    fun fut hfut => ?_⟩
  · obtain ⟨hact, -, -, hchannel⟩ := hw.recv e (List.mem_of_getElem? he)
    refine ⟨fun h => absurd h hact, iff_of_false (fun hr => hact (isActive_of_reserved hr)) ?_,
      fun c hc => (hchannel c hc).2, fun h => absurd h hact, fun doc hdoc => absurd (by rw [hdoc]; rfl) hact⟩
    rintro ⟨n, hn⟩
    cases hn
  · rw [hw.ledger] at hd
    exact absurd hd List.not_mem_nil
  · rw [books, hheld, hw.ledger]
    rfl
  · rw [books, hw.ledger]
    exact List.nodup_nil
  · rw [hheld] at hu
    exact absurd hu (Multiset.notMem_zero _)
  · rw [hw.futures] at hfut
    exact absurd hfut List.not_mem_nil

/-- Where a call leads: some small steps further, and the application has only what is settled. -/
def Leads (P : Permits) (w w' : World T) : Prop := Moves P w.session ⟨0, none⟩ w'.session ⟨0, none⟩ ∧ w'.Ok

lemma Ok.leads (hw : w.Ok) {s : SessionInner T} {handles : List Channel} {futures : List SendReplyFuture}
    (hm : Moves P w.session ⟨0, none⟩ s ⟨0, none⟩) (hh : ∀ c ∈ handles, c ∈ w.handles ∨ s.Settled c.docNo)
    (hf : ∀ fut ∈ futures, fut ∈ w.futures ∨ fut.Settled s) : Leads P w ⟨s, handles, futures⟩ := by
  refine ⟨hm, hm.inv hw.session, fun c hc => ?_, fun fut hfut => ?_⟩
  · rcases hh c hc with hold | hnew
    · exact hm.settled hw.session (hw.handles c hold)
    · exact hnew
  · rcases hf fut hfut with hold | hnew
    · exact fun reply hsent => hm.settled hw.session (hw.futures fut hold reply hsent)
    · exact hnew

lemma yields_holding {α β : Type} [DecidableEq α] {a : α} {as : List α} {x : Outcome Halt β} {Q : β → Prop}
    (hx : a ∈ as → Yields Q x) : Yields Q (holding a as x) := by
  rw [holding]
  split_ifs with ha
  · exact hx ha
  · trivial

lemma yields_recvSeg {packet : Bytes} {variant : UInt8} {i : ℕ} (hw : w.Ok)
    (hclaim : P.claim) (hwrite : P.write)
    (hlend : w.UsesReplyBuffer (.recvSeg packet variant i) → P.lend) :
    Yields (fun r : Option ℕ × SessionInner T => r.1 ≠ none → Moves P w.session ⟨0, none⟩ r.2 ⟨0, none⟩)
      (SessionInner.recvSeg packet w.session variant i : Outcome Halt _) := by
  rw [SessionInner.recvSeg]
  apply (yields_self (SegFrame.parse w.session.debugAssertions variant packet i)).attempt.bind
  rintro _ (⟨⟨f, j⟩, rfl, hf⟩ | ⟨_, rfl, -⟩)
  · have hframe := ends_recvFrame (ε := Halt) (S := fun _ => True) (P := P) (f := f) hw.session rfl hclaim hwrite
      (fun hu => hlend ⟨f, j, hf, hu⟩) fun _ _ => trivial
    apply (hframe.imp (fun _ _ => trivial) fun _ hr => hr).bind
    rintro ⟨(_ | ⟨⟩), s⟩ hr
    · exact fun hn => absurd rfl hn
    · exact fun _ => hr
  · exact fun hn => absurd rfl hn

lemma mem_received {α : Type} {ret : Except ChannelError (Option (α × Channel))} {c : Channel} (hc : c ∈ received ret) :
    ∃ buf, ret = .ok (some (buf, c)) := by
  rcases ret with _ | _ | ⟨buf, c'⟩
  · exact absurd hc List.not_mem_nil
  · exact absurd hc List.not_mem_nil
  · exact ⟨buf, by rw [List.mem_singleton.mp hc]⟩

lemma mem_polled {α : Type} {ret : Option (Except ChannelError (α × Channel))} {c : Channel} (hc : c ∈ polled ret) :
    ∃ buf, ret = some (.ok (buf, c)) := by
  rcases ret with _ | _ | ⟨buf, c'⟩
  · exact absurd hc List.not_mem_nil
  · exact absurd hc List.not_mem_nil
  · exact ⟨buf, by rw [List.mem_singleton.mp hc]⟩

lemma mem_replied {ret : SendReplyFuture.Polled} {c : Channel} (hc : c ∈ replied ret) : ∃ len, ret = .ready len c := by
  cases ret with
  | ready len c' => exact ⟨len, by rw [List.mem_singleton.mp hc]⟩
  | _ => exact absurd hc List.not_mem_nil

/-- Every call leads somewhere in small steps. -/
lemma yields_step [LT T] [DecidableLT T] {a : Action T} (hw : w.Ok) (hclaim : P.claim) (hwrite : P.write) (hlend : w.UsesReplyBuffer a → P.lend)
    (hlose : w.ClosesReply a → P.lose) : Yields (Leads P w) (w.step a) := by
  cases a with
  | recvSeg packet variant i =>
    rw [step]
    split_ifs
    · apply (yields_recvSeg hw hclaim hwrite hlend).bind
      rintro ⟨(_ | j), s⟩ hr
      · trivial
      · exact hw.leads (hr (Option.some_ne_none _)) (fun _ h => .inl h) fun _ h => .inl h
    · trivial
  | tryRecv c =>
    refine yields_holding fun hc => ?_
    apply (Channel.ends_tryRecv (P := P) hw.session).ends.bind
    rintro ⟨ret, s⟩ ⟨hm, hret⟩
    refine hw.leads hm (fun c' hc' => (List.mem_append.mp hc').imp id fun hc' => ?_) fun _ h => .inl h
    obtain ⟨buf, hbuf⟩ := mem_received hc'
    exact hret buf c' hbuf
  | pollRecv c =>
    refine yields_holding fun hc => ?_
    apply (Channel.ends_pollRecv (P := P) hw.session).ends.bind
    rintro ⟨ret, s⟩ ⟨hm, hret⟩
    refine hw.leads hm (fun c' hc' => (List.mem_append.mp hc').imp id fun hc' => ?_) fun _ h => .inl h
    obtain ⟨buf, hbuf⟩ := mem_polled hc'
    exact hret buf c' hbuf
  | clone c =>
    refine yields_holding fun hc => ?_
    apply (Channel.ends_clone (P := P) hw.session (hw.handles c hc)).bind
    rintro ⟨_, s⟩ ⟨rfl, hm⟩
    refine hw.leads hm (fun c' hc' => .inl ((List.mem_append.mp hc').elim id fun hc' => ?_)) fun _ h => .inl h
    rw [List.mem_singleton.mp hc']
    exact hc
  | drop c =>
    refine yields_holding fun hc => ?_
    apply (Channel.ends_drop (P := P) hw.session (hw.handles c hc) fun channel len reply ho hr h1 =>
      hlose ⟨channel, ⟨ho, len, reply, hr⟩, h1⟩).bind
    intro s hm
    exact hw.leads hm (fun c' hc' => .inl (List.mem_of_mem_erase hc')) fun _ h => .inl h
  | closeIf c b =>
    refine yields_holding fun hc => ?_
    apply (Channel.ends_closeIf (P := P) hw.session (hw.handles c hc) fun channel len reply ho hr hbasic hb =>
      hlose ⟨hb, hbasic, channel, ho, len, reply, hr⟩).bind
    rintro ⟨_, s⟩ hm
    exact hw.leads hm (fun _ h => .inl h) fun _ h => .inl h
  | trySend c doc =>
    refine yields_holding fun hc => ?_
    apply (Channel.ends_trySendAny (P := P) hw.session rfl).bind
    rintro ⟨ret, s⟩ ⟨hm, hret⟩
    refine hw.leads hm (fun c' hc' => (List.mem_append.mp hc').imp id fun hc' => hret c' ?_) fun _ h => .inl h
    cases ret with
    | error e => exact absurd hc' List.not_mem_nil
    | ok c'' => rw [List.mem_singleton.mp hc']
  | sendWithReplyBuffer c doc buffer =>
    refine yields_holding fun hc => ?_
    refine hw.leads .refl (fun _ h => .inl h) fun fut hfut => (List.mem_append.mp hfut).imp id fun hfut reply hsent => ?_
    rw [List.mem_singleton.mp hfut] at hsent
    cases hsent
  | pollReply fut =>
    refine yields_holding fun hfut => ?_
    apply (SendReplyFuture.ends_poll (P := P) hw.session (hw.futures fut hfut)).bind
    rintro ⟨ret, fut', s⟩ ⟨hm, hsettled, hret⟩
    refine hw.leads hm (fun c' hc' => (List.mem_append.mp hc').imp id fun hc' => ?_) fun g hg =>
      (List.mem_append.mp hg).imp List.mem_of_mem_erase fun hg => ?_
    · obtain ⟨len, hlen⟩ := mem_replied hc'
      exact hret len c' hlen
    · rw [List.mem_singleton.mp hg]
      exact hsettled
  | dropReply fut =>
    refine yields_holding fun hfut => ?_
    apply (SendReplyFuture.ends_drop (P := P) hw.session (hw.futures fut hfut) fun reply channel len c' hsent ho hr h1 =>
      hlose ⟨reply, channel, hsent, ⟨ho, len, c', hr⟩, h1⟩).bind
    intro s hm
    exact hw.leads hm (fun _ h => .inl h) fun g hg => .inl (List.mem_of_mem_erase hg)
  | transmit pass =>
    apply (transmit_moves (P := P) (h := ⟨0, none⟩)).bind
    intro out hm
    exact hw.leads hm (fun _ h => .inl h) fun _ h => .inl h
  | acknowledged socketUid variant packet i =>
    rw [step, SessionInner.acknowledged, bind_assoc]
    apply (yields_self (AckRuns.decode packet (variant = variantAckRun) i)).bind
    rintro ⟨_, j, acks⟩ -
    exact hw.leads (Same.moves ⟨rfl, rfl, rfl, rfl, rfl, .inl rfl, rfl⟩) (fun _ h => .inl h) fun _ h => .inl h

section Runs

variable [LT T] [DecidableLT T] {a : Action T} {as : List (Action T)} {C : World T → Action T → Prop}

lemma Ok.moves (hw : w.Ok) (ha : w.step a = .ok w') :
    Moves ⟨True, True, w.UsesReplyBuffer a, w.ClosesReply a, False⟩ w.session ⟨0, none⟩ w'.session ⟨0, none⟩ :=
  ((yields_step hw trivial trivial id id).ok ha).1

lemma Ok.step (hw : w.Ok) (ha : w.step a = .ok w') : w'.Ok :=
  ((yields_step (P := ⟨True, True, True, True, True⟩) hw trivial trivial (fun _ => trivial) fun _ => trivial).ok ha).2

/-- Every call of a run meets a condition. -/
def Always (C : World T → Action T → Prop) : List (Action T) → World T → Prop
  | [], _ => True
  | a :: as, w => C w a ∧ ∀ w', w.step a = .ok w' → Always C as w'

lemma Always.induction {I : World T → Prop} (hC : w.Always C as) (hw : w.Ok) (hI : I w) (hrun : run as w = .ok w')
    (hstep : ∀ w a w', w.Ok → I w → C w a → w.step a = .ok w' → I w') : I w' := by
  induction as generalizing w with
  | nil =>
    cases hrun
    exact hI
  | cons a as ih =>
    obtain ⟨w₁, ha, hrun⟩ := bind_eq_ok.mp hrun
    exact ih (hC.2 w₁ ha) (hw.step ha) (hstep w a w₁ hw hI hC.1 ha) hrun

lemma always_true : w.Always (fun _ _ => True) as := by
  induction as generalizing w with
  | nil => trivial
  | cons a as ih => exact ⟨trivial, fun w' _ => ih⟩

/-- The states that a session can come to. -/
def Reachable (w : World T) : Prop := ∃ w₀ as, w₀.Initial ∧ run as w₀ = .ok w

lemma Ok.after (hw : w.Ok) (hrun : run as w = .ok w') : w'.Ok :=
  always_true.induction hw hw hrun fun _ _ _ hw _ _ ha => hw.step ha

lemma Reachable.ok (hw : w.Reachable) : w.Ok := by
  obtain ⟨w₀, as, hinit, hrun⟩ := hw
  exact hinit.ok.after hrun

end Runs

end World

end Pqsnet.Session
