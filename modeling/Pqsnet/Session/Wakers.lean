import Pqsnet.Checked.WaitQueue
import Pqsnet.Session.Channel
import Pqsnet.Session.Recv

/-! The wakers of a channel. Whoever waits for a document or for a reply is woken when there is one, and when the channel closes. -/

namespace Pqsnet.Session

open Checked Outcome Relation

variable {T ε ι : Type}

/-- What `SpecialReplyState` is with its waker. -/
inductive WakingReply (ι : Type)
  | awaiting (buffer : Option BufRange) (waker : ι)
  | recv (len : ℕ) (channel : UnreleasedChannel)
  | none

namespace WakingReply

def forget : WakingReply ι → SpecialReplyState
  | awaiting buffer _ => .awaiting buffer
  | recv len channel => .recv len channel
  | none => .none

def waker : WakingReply ι → Option ι
  | awaiting _ w => some w
  | _ => Option.none

def tryIncoming : WakingReply ι → Option BufRange × WakingReply ι
  | awaiting buffer w => (buffer, .awaiting .none w)
  | other => (.none, other)

end WakingReply

/-- What `OpenChannel` is with its wakers. -/
structure WakingChannel (ι : Type) where
  refCount : ℕ
  readyWakers : List ι
  readyDocs : List UnfinishedRecvDoc
  replyBuffer : WakingReply ι

namespace WakingChannel

variable {channel : WakingChannel ι} {docNo parentNo : ℕ} {isClosed : Bool} {doc : RecvDoc}

def forget (channel : WakingChannel ι) : OpenChannel := ⟨channel.refCount, channel.readyDocs, channel.replyBuffer.forget⟩

/-- `post_to_channel`, with the waker that it gives back. -/
def post (channel : WakingChannel ι) (docNo parentNo : ℕ) (isClosed : Bool) (doc : RecvDoc) :
    Outcome ε (WakingChannel ι × Option ι) :=
  match doc.mem with
  | .simple buf =>
    .ok ({ channel with
      readyDocs := channel.readyDocs ++ [⟨buf, docNo, doc.hasSpecialParent, isClosed, doc.docLen, parentNo⟩]
      readyWakers := channel.readyWakers.dropLast }, channel.readyWakers.getLast?)
  | .replyBuf _ _ =>
    match channel.replyBuffer with
    | .awaiting _ w =>
      .ok ({ channel with replyBuffer := .recv doc.totalRecv ⟨docNo, doc.hasSpecialParent, isClosed, doc.docLen⟩ }, some w)
    | _ => .panic .unreachable

/-- What `try_recv` does with a channel that is open. -/
def tryRecv (channel : WakingChannel ι) : Option UnfinishedRecvDoc × WakingChannel ι :=
  (channel.readyDocs.getLast?, { channel with readyDocs := channel.readyDocs.dropLast })

/-- What `RecvFuture::poll` does with a channel that is open. -/
def pollRecv (waker : ι) (channel : WakingChannel ι) : Option UnfinishedRecvDoc × WakingChannel ι :=
  match channel.readyDocs.getLast? with
  | some d => (some d, { channel with readyDocs := channel.readyDocs.dropLast })
  | none => (none, { channel with readyWakers := channel.readyWakers ++ [waker] })

/-- What `SendReplyFuture::poll` does with the channel of a document that was sent. -/
def pollReply (waker : ι) (channel : WakingChannel ι) : SendReplyFuture.Polled × WakingChannel ι :=
  match channel.replyBuffer with
  | .awaiting buffer _ => (.pending, { channel with replyBuffer := .awaiting buffer waker })
  | .recv len c => (.ready len ⟨c.docNo, c.hasSpecialParent, c.isClosed⟩, { channel with replyBuffer := .none })
  | .none => (.error .closed, channel)

/-- Whom `drop_closed_channel` wakes, in this order. -/
def closeWakes (channel : WakingChannel ι) : List ι := channel.readyWakers.reverse ++ channel.replyBuffer.waker.toList

lemma post_simple {buf : List (Option UInt8)} {channel' : WakingChannel ι} {w : Option ι} (hmem : doc.mem = .simple buf)
    (h : (channel.post docNo parentNo isClosed doc : Outcome ε _) = .ok (channel', w)) :
    w = channel.readyWakers.getLast? ∧ channel'.readyWakers = channel.readyWakers.dropLast ∧
      channel'.readyDocs.length = channel.readyDocs.length + 1 ∧ channel'.replyBuffer = channel.replyBuffer := by
  rw [post, hmem] at h
  obtain ⟨rfl, rfl⟩ := Prod.mk.inj (ok_inj.mp h)
  exact ⟨rfl, rfl, List.length_append, rfl⟩

lemma post_replyBuf {range : BufRange} {m : List (Option UInt8)} {channel' : WakingChannel ι} {w : Option ι}
    (hmem : doc.mem = .replyBuf range m) (h : (channel.post docNo parentNo isClosed doc : Outcome ε _) = .ok (channel', w)) :
    w = channel.replyBuffer.waker ∧ channel'.readyWakers = channel.readyWakers ∧ channel'.readyDocs = channel.readyDocs := by
  rw [post, hmem] at h
  obtain ⟨refCount, readyWakers, readyDocs, buffer | _ | _⟩ := channel
  · obtain ⟨rfl, rfl⟩ := Prod.mk.inj (ok_inj.mp h)
    exact ⟨rfl, rfl, rfl⟩
  · cases h
  · cases h

/-! Without the wakers this is what is done with channels elsewhere. -/

lemma post_forget : ((channel.post docNo parentNo isClosed doc).map fun r => r.1.forget : Outcome ε OpenChannel) =
    channel.forget.post docNo parentNo isClosed doc := by
  rw [post, OpenChannel.post]
  cases doc.mem with
  | simple buf => rfl
  | replyBuf range m =>
    obtain ⟨refCount, readyWakers, readyDocs, _ | _ | _⟩ := channel <;> rfl

lemma tryRecv_forget : (channel.tryRecv.1, channel.tryRecv.2.forget) =
    (channel.forget.readyDocs.getLast?, { channel.forget with readyDocs := channel.forget.readyDocs.dropLast }) := rfl

lemma pollRecv_forget (waker : ι) : ((channel.pollRecv waker).1, (channel.pollRecv waker).2.forget) =
    (channel.forget.readyDocs.getLast?, { channel.forget with readyDocs := channel.forget.readyDocs.dropLast }) := by
  rw [pollRecv]
  cases hlast : channel.readyDocs.getLast? with
  | some d => exact congrArg (·, _) hlast.symm
  | none =>
    have hnil := List.getLast?_eq_none_iff.mp hlast
    simp [forget, hnil]

lemma pollReply_forget (waker : ι) :
    ((channel.pollReply waker).1, (channel.pollReply waker).2.forget) = SendReplyFuture.takeReply channel.forget := by
  obtain ⟨refCount, readyWakers, readyDocs, _ | _ | _⟩ := channel <;> rfl

lemma tryIncoming_forget : (channel.replyBuffer.tryIncoming.1, channel.replyBuffer.tryIncoming.2.forget) =
    channel.forget.replyBuffer.tryIncoming := by
  obtain ⟨refCount, readyWakers, readyDocs, _ | _ | _⟩ := channel <;> rfl

end WakingChannel

/-- The future that waits for a reply, if it does. -/
inductive Awaiter (ι : Type)
  | idle
  | asleep (waker : ι)
  | awake
  deriving DecidableEq

/-- A channel, which may be closed, and the futures that were polled for it. A future has the same waker each time. -/
structure Mailbox (ι : Type) where
  channel : Option (WakingChannel ι)
  futures : Sleepers ι
  reply : Awaiter ι
  replyFlight : Multiset ι

namespace Mailbox

/-- The documents of a channel, with those who wait for them. -/
def queue (b : Mailbox ι) : WaitQueue ι :=
  ⟨b.futures, b.channel.elim 0 fun ch => ch.readyDocs.length, b.channel.elim [] fun ch => ch.readyWakers⟩

variable {orderly : Prop} {b b' b₀ : Mailbox ι} {ch ch₀ : WakingChannel ι}

lemma queue_open (hb : b.channel = some ch) : b.queue = ⟨b.futures, ch.readyDocs.length, ch.readyWakers⟩ := by
  rw [queue, hb]
  rfl

lemma queue_closed (hb : b.channel = none) : b.queue = ⟨b.futures, 0, []⟩ := by
  rw [queue, hb]
  rfl

/-- A channel as a session makes it, before anybody waits for a document. -/
structure New (b : Mailbox ι) (ch : WakingChannel ι) : Prop where
  channel : b.channel = some ch
  wakers : ch.readyWakers = []
  futures : b.futures = ⟨∅, ∅, 0, 0⟩
  reply : ∀ w, b.reply = .asleep w → ∃ buffer, ch.replyBuffer = .awaiting buffer w

/-- Whoever waits for the reply will be woken. -/
def Awaited (b : Mailbox ι) : Prop :=
  ∀ w, b.reply = .asleep w → w ∈ b.replyFlight ∨ ∃ ch buffer, b.channel = some ch ∧ ch.replyBuffer = .awaiting buffer w

lemma New.served (h : b.New ch) : b.queue.Served := by
  rw [queue_open h.channel, h.futures, h.wakers]
  exact ⟨fun i hi => absurd hi (Finset.notMem_empty i), fun i hi => absurd hi (Finset.notMem_empty i), .inl rfl⟩

lemma New.inOrder (h : b.New ch) : b.queue.Orderly := by
  rw [queue_open h.channel, h.futures, h.wakers]
  exact ⟨Multiset.nodup_zero, fun i hi => absurd hi (Multiset.notMem_zero i), rfl⟩

lemma New.awaited (h : b.New ch) : b.Awaited := by
  intro w hw
  obtain ⟨buffer, hbuffer⟩ := h.reply w hw
  exact .inr ⟨ch, buffer, h.channel, hbuffer⟩

lemma Awaited.of_reply (h : b.Awaited) (hreply : b'.reply = b.reply) (hflight : b'.replyFlight = b.replyFlight)
    (hch : ∀ ch, b.channel = some ch → ∃ ch', b'.channel = some ch' ∧ ch'.replyBuffer = ch.replyBuffer) : b'.Awaited := by
  intro w hw
  rw [hreply] at hw
  rw [hflight]
  refine (h w hw).imp_right ?_
  rintro ⟨ch, buffer, hb, hbuffer⟩
  obtain ⟨ch', hb', hreply'⟩ := hch ch hb
  exact ⟨ch', buffer, hb', hreply'.trans hbuffer⟩

def pollReply (b : Mailbox ι) (i : ι) : Mailbox ι :=
  match b.channel with
  | none => { b with reply := .idle }
  | some ch =>
    match ch.pollReply i with
    | (.pending, ch) => { b with channel := some ch, reply := .asleep i }
    | (_, ch) => { b with channel := some ch, reply := .idle }

lemma queue_pollReply (i : ι) : (b.pollReply i).queue = b.queue := by
  cases hb : b.channel with
  | none => rw [queue_closed hb, pollReply, hb]; rfl
  | some ch =>
    rw [queue_open hb, pollReply, hb]
    obtain ⟨refCount, readyWakers, readyDocs, _ | _ | _⟩ := ch <;> rfl

lemma awaited_pollReply (i : ι) : (b.pollReply i).Awaited := by
  intro w hw
  rw [Mailbox.pollReply] at hw ⊢
  cases hb : b.channel with
  | none =>
    rw [hb] at hw
    cases hw
  | some ch =>
    rw [hb] at hw
    obtain ⟨refCount, readyWakers, readyDocs, buffer | _ | _⟩ := ch
    · cases hw
      exact .inr ⟨_, buffer, rfl, rfl⟩
    · cases hw
    · cases hw

variable [DecidableEq ι]

def pollRecv (b : Mailbox ι) (i : ι) : Mailbox ι :=
  match b.channel with
  | none => { b with futures := b.futures.finish i }
  | some ch =>
    match ch.pollRecv i with
    | (some _, ch) => { b with channel := some ch, futures := b.futures.finish i }
    | (none, ch) => { b with channel := some ch, futures := b.futures.wait i }

/-- What may happen to a channel and to those who wait for it. A waker is woken some time after it was taken out of the channel. In
an orderly run a future is not polled again before it was woken, and it is not dropped before it is done. -/
inductive Step (orderly : Prop) (b : Mailbox ι) : Mailbox ι → Prop
  | post {w : Option ι} {docNo parentNo : ℕ} {isClosed : Bool} {doc : RecvDoc} {buf : List (Option UInt8)} {ch ch' : WakingChannel ι}
      (hb : b.channel = some ch) (hmem : doc.mem = .simple buf)
      (h : (ch.post docNo parentNo isClosed doc : Outcome Empty _) = .ok (ch', w)) :
      Step orderly b { b with channel := some ch', futures := b.futures.callAll w.toList }
  | postReply {w : ι} {docNo parentNo : ℕ} {isClosed : Bool} {doc : RecvDoc} {range : BufRange} {m : List (Option UInt8)}
      {ch ch' : WakingChannel ι} (hb : b.channel = some ch) (hmem : doc.mem = .replyBuf range m)
      (h : (ch.post docNo parentNo isClosed doc : Outcome Empty _) = .ok (ch', some w)) :
      Step orderly b { b with channel := some ch', replyFlight := w ::ₘ b.replyFlight }
  | tryRecv {ch : WakingChannel ι} (hb : b.channel = some ch) : Step orderly b { b with channel := some ch.tryRecv.2 }
  | pollRecv {i : ι} (hi : orderly → i ∉ b.futures.asleep) : Step orderly b (b.pollRecv i)
  | pollReply {i : ι} : Step orderly b (b.pollReply i)
  | tryIncoming {ch : WakingChannel ι} (hb : b.channel = some ch) :
      Step orderly b { b with channel := some { ch with replyBuffer := ch.replyBuffer.tryIncoming.2 } }
  | count {ch : WakingChannel ι} (n : ℕ) (hb : b.channel = some ch) : Step orderly b { b with channel := some { ch with refCount := n } }
  | close {ch : WakingChannel ι} (hb : b.channel = some ch) : Step orderly b {
      channel := none
      futures := b.futures.callAll ch.readyWakers.reverse
      reply := b.reply
      replyFlight := b.replyFlight + ch.replyBuffer.waker.toList }
  | wake {i : ι} (hi : i ∈ b.futures.flight) : Step orderly b { b with futures := b.futures.arrive i }
  | wakeReply {w : ι} (hw : w ∈ b.replyFlight) : Step orderly b { b with
      reply := if b.reply = .asleep w then .awake else b.reply
      replyFlight := b.replyFlight.erase w }
  | drop {i : ι} (h : ¬ orderly) : Step orderly b { b with futures := b.futures.leave i }
  | dropReply : Step orderly b { b with reply := .idle }

lemma queue_pollRecv {i : ι} (hi : orderly → i ∉ b.futures.asleep) : WaitQueue.Step orderly b.queue (b.pollRecv i).queue := by
  cases hb : b.channel with
  | none =>
    rw [queue_closed hb, pollRecv, hb]
    exact .giveUp rfl hi
  | some ch =>
    have hlook : (b.pollRecv i).queue = b.queue.look i := by
      rw [queue_open hb, pollRecv, hb]
      cases hlast : ch.readyDocs.getLast? with
      | none =>
        have hnil := List.getLast?_eq_none_iff.mp hlast
        simp [WakingChannel.pollRecv, WaitQueue.look, queue, hnil]
      | some d =>
        have hne : ch.readyDocs ≠ [] := fun hnil => by rw [hnil] at hlast; cases hlast
        simp [WakingChannel.pollRecv, WaitQueue.look, queue, hlast, hne]
    rw [hlook]
    refine .look fun ho => ?_
    rw [queue_open hb]
    exact hi ho

lemma Step.queue (h : Step orderly b b') : ReflGen (WaitQueue.Step orderly) b.queue b'.queue := by
  cases h with
  | @post w _ _ _ _ _ ch ch' hb hmem h =>
    obtain ⟨rfl, hwakers, hdocs, -⟩ := WakingChannel.post_simple hmem h
    rw [queue_open hb, queue_open rfl, hwakers, hdocs]
    exact .single .put
  | @postReply w _ _ _ _ _ _ ch ch' hb hmem h =>
    obtain ⟨-, hwakers, hdocs⟩ := WakingChannel.post_replyBuf hmem h
    rw [queue_open hb, queue_open rfl, hwakers, hdocs]
  | tryRecv hb =>
    rw [queue_open hb]
    rw [queue_open rfl, WakingChannel.tryRecv, List.length_dropLast]
    exact .single .take
  | pollRecv hi => exact .single (queue_pollRecv hi)
  | pollReply =>
    rw [queue_pollReply]
  | tryIncoming hb | count _ hb =>
    rw [queue_open hb]
    exact .refl
  | close hb =>
    rw [queue_open hb]
    exact .single .shut
  | wake hi => exact .single (.arrive hi)
  | wakeReply _ | dropReply => exact .refl
  | drop hleave => exact .single (.leave hleave)

lemma Awaited.pollRecv (h : b.Awaited) (i : ι) : (b.pollRecv i).Awaited := by
  cases hb : b.channel with
  | none =>
    rw [Mailbox.pollRecv, hb]
    exact h.of_reply rfl rfl fun ch hch => absurd (hb.symm.trans hch) nofun
  | some ch =>
    rw [Mailbox.pollRecv, hb]
    dsimp only [WakingChannel.pollRecv]
    cases ch.readyDocs.getLast? <;>
    · refine h.of_reply rfl rfl fun c hc => ⟨_, rfl, ?_⟩
      cases hb.symm.trans hc
      rfl

lemma Awaited.step (h : b.Awaited) (hs : Step orderly b b') : b'.Awaited := by
  cases hs with
  | @post _ _ _ _ _ _ ch ch' hb hmem hpost =>
    refine h.of_reply rfl rfl fun c hc => ⟨ch', rfl, ?_⟩
    cases hb.symm.trans hc
    exact (WakingChannel.post_simple hmem hpost).2.2.2
  | @postReply w _ _ _ _ _ _ ch ch' hb hmem hpost =>
    obtain ⟨hwaker, -⟩ := WakingChannel.post_replyBuf hmem hpost
    intro v hv
    refine .inl (Multiset.mem_cons.mpr ((h v hv).symm.imp_left ?_))
    rintro ⟨c, buffer, hc, hbuffer⟩
    cases hb.symm.trans hc
    rw [hbuffer] at hwaker
    exact (Option.some.inj hwaker).symm
  | tryRecv hb | count _ hb =>
    refine h.of_reply rfl rfl fun c hc => ⟨_, rfl, ?_⟩
    cases hb.symm.trans hc
    rfl
  | @pollRecv i hi => exact h.pollRecv i
  | @pollReply i => exact awaited_pollReply i
  | @tryIncoming ch hb =>
    intro v hv
    refine (h v hv).imp_right ?_
    rintro ⟨c, buffer, hc, hbuffer⟩
    cases hb.symm.trans hc
    refine ⟨_, none, rfl, ?_⟩
    rw [hbuffer]
    rfl
  | @close ch hb =>
    intro v hv
    refine .inl (Multiset.mem_add.mpr ((h v hv).imp_right ?_))
    rintro ⟨c, buffer, hc, hbuffer⟩
    cases hb.symm.trans hc
    rw [hbuffer]
    exact List.mem_singleton_self v
  | wake _ | drop _ => exact h
  | @wakeReply w hw => 
    intro v hv
    dsimp only at hv
    split_ifs at hv with heq
    have hne : v ≠ w := fun hvw => heq (hvw ▸ hv)
    exact (h v hv).imp_left (Multiset.mem_erase_of_ne hne).mpr
  | dropReply => exact fun v hv => nomatch hv

lemma Awaited.run (h : b₀.Awaited) (hrun : ReflTransGen (Step orderly) b₀ b) : b.Awaited := by
  induction hrun with
  | refl => exact h
  | tail _ hs ih => exact ih.step hs

lemma queue_run (hrun : ReflTransGen (Step orderly) b₀ b) : ReflTransGen (WaitQueue.Step orderly) b₀.queue b.queue := by
  induction hrun with
  | refl => exact .refl
  | tail _ hs ih => exact ih.trans hs.queue.to_reflTransGen

/-- Whoever waits for a document is about to be woken, or still has a waker in the channel, and then the documents that are ready
have all been announced to others. Whoever waits for a reply is about to be woken or has a waker in the channel. -/
theorem no_lost_wakeup (h₀ : b₀.New ch₀) (hrun : ReflTransGen (Step orderly) b₀ b) :
    (∀ i ∈ b.futures.asleep, i ∈ b.futures.flight ∨ ∃ ch, b.channel = some ch ∧ i ∈ ch.readyWakers ∧
        ch.readyDocs.length ≤ b.futures.flight.card + b.futures.awake.card + b.futures.missed) ∧
      (∀ w, b.reply = .asleep w → w ∈ b.replyFlight ∨ ∃ ch buffer, b.channel = some ch ∧ ch.replyBuffer = .awaiting buffer w) ∧
      (orderly → b.futures.missed = 0) := by
  have hserved : b.queue.Served := h₀.served.run (queue_run hrun)
  refine ⟨fun i hi => ?_, h₀.awaited.run hrun, fun ho => (h₀.inOrder.run ho (queue_run hrun)).missed⟩
  refine or_iff_not_imp_left.mpr fun hflight => ?_
  have hcalls : i ∈ b.queue.calls := (Multiset.mem_add.mp (hserved.called i hi)).resolve_right hflight
  have hitems := hserved.items_le hi hflight
  cases hb : b.channel with
  | none =>
    rw [queue_closed hb] at hcalls
    cases hcalls
  | some ch =>
    rw [queue_open hb] at hcalls hitems
    exact ⟨ch, rfl, hcalls, hitems⟩

theorem no_lost_wakeup_two : ∃ b : Mailbox ℕ,
    ReflTransGen (Step True) ⟨some ⟨1, [], [], .none⟩, ⟨∅, ∅, 0, 0⟩, .idle, 0⟩ b ∧ 0 ∈ b.futures.asleep ∧
      ∃ ch, b.channel = some ch ∧ 0 ∈ ch.readyWakers ∧ ch.readyDocs.length = 1 ∧
        ch.readyDocs.length ≤ b.futures.flight.card + b.futures.awake.card := by
  have hnew : New (⟨some ⟨1, [], [], .none⟩, ⟨∅, ∅, 0, 0⟩, .idle, 0⟩ : Mailbox ℕ) ⟨1, [], [], .none⟩ := ⟨rfl, rfl, rfl, nofun⟩
  -- two futures wait, and then there is one document
  have hpost : ((⟨1, [0, 1], [], .none⟩ : WakingChannel ℕ).post 2 1 false ⟨false, some 1, .simple [], 0, [], 0⟩ : Outcome Empty _) =
      .ok (⟨1, [0], [⟨[], 2, false, false, 0, 1⟩], .none⟩, some 1) := rfl
  have hrun : ReflTransGen (Step True) (⟨some ⟨1, [], [], .none⟩, ⟨∅, ∅, 0, 0⟩, .idle, 0⟩ : Mailbox ℕ) _ :=
    ((ReflTransGen.single (.pollRecv (i := 0) fun _ => Finset.notMem_empty 0)).tail
      (.pollRecv (i := 1) fun _ => by decide)).tail (.post rfl rfl hpost)
  obtain ⟨hasleep, -, hmissed⟩ := no_lost_wakeup hnew hrun
  refine ⟨_, hrun, by decide, ?_⟩
  obtain ⟨ch, hch, hmem, hle⟩ := (hasleep 0 (by decide)).resolve_left (by decide)
  rw [hmissed trivial, add_zero] at hle
  refine ⟨ch, hch, hmem, ?_, hle⟩
  cases hch
  rfl

end Mailbox

/-! The wakers of those who wait to send. -/

/-- Whoever has waited and could send wakes the next one. -/
def nextSender (hasWaited : Bool) (wakers : List ι) : Option ι × List ι :=
  if hasWaited then (wakers.head?, wakers.tail) else (none, wakers)

/-- The futures that send. That of `send_with_reply_buffer` keeps its flag as long as it has not sent. -/
inductive Sender
  | send (fut : SendFuture)
  | sendReply (fut : SendReplyFuture) (hasWaited : Bool)

namespace Sender

/-- Whether the future found the session full. -/
def waits : Sender → Bool
  | send fut => fut.doc.isSome && fut.hasWaited
  | sendReply ⟨_, _, .sending _⟩ hasWaited => hasWaited
  | sendReply ⟨_, _, .sent _⟩ _ => false

/-- A poll, with the waker that is woken and with `send_wakers`. -/
def poll (waker : ι) (wakers : List ι) (s : SessionInner T) : Sender → Outcome ε (Sender × Option ι × List ι × SessionInner T)
  | send fut => do
    match ← fut.poll s with
    | (some (.ok _), fut', s) =>
      let (next, wakers) := nextSender fut.hasWaited wakers
      .ok (send fut', next, wakers, s)
    | (none, fut', s) => .ok (send fut', none, wakers ++ [waker], s)
    | (some (.error _), fut', s) => .ok (send fut', none, wakers, s)
  | sendReply fut hasWaited =>
    match fut.state with
    | .sending doc => do
      match ← fut.pollSending doc s with
      | (.pending, ⟨channel, buffer, .sent reply⟩, s) =>
        let (next, wakers) := nextSender hasWaited wakers
        .ok (sendReply ⟨channel, buffer, .sent reply⟩ hasWaited, next, wakers, s)
      | (.pending, ⟨channel, buffer, .sending doc⟩, s) =>
        .ok (sendReply ⟨channel, buffer, .sending doc⟩ true, none, wakers ++ [waker], s)
      | (_, fut', s) => .ok (sendReply fut' hasWaited, none, wakers, s)
    | .sent reply => do
      let (_, s) ← SendReplyFuture.pollSent reply s
      .ok (sendReply fut hasWaited, none, wakers, s)

variable {f f' : Sender} {s s' : SessionInner T} {waker : ι} {wakers wakers' : List ι} {next : Option ι}

lemma next_of_not_waits (hf : f.waits = false) (h : (f.poll waker wakers s : Outcome ε _) = .ok (f', next, wakers', s')) : next = none := by
  cases f with
  | send fut =>
    rw [poll, bind_eq_ok] at h
    obtain ⟨⟨polled, fut', s''⟩, hpoll, h⟩ := h
    have hdoc : fut.doc.isSome := by
      rw [SendFuture.poll, bind_eq_ok] at hpoll
      obtain ⟨doc, hdoc, -⟩ := hpoll
      cases h : fut.doc with
      | none =>
        rw [h] at hdoc
        cases hdoc
      | some doc => rfl
    have hwaited : fut.hasWaited = false := by
      rw [waits, hdoc] at hf
      exact hf
    rcases polled with _ | _ | _
    · cases h
      rfl
    · cases h
      rfl
    · rw [hwaited] at h
      cases h
      rfl
  | sendReply fut hasWaited =>
    obtain ⟨channel, buffer, doc | reply⟩ := fut
    · obtain rfl : hasWaited = false := hf
      rw [poll, bind_eq_ok] at h
      obtain ⟨⟨polled, ⟨c, b, _ | _⟩, s''⟩, -, h⟩ := h
      · cases polled <;> cases h <;> rfl
      · cases polled <;> cases h <;> rfl
    · rw [poll, bind_eq_ok] at h
      obtain ⟨_, -, h⟩ := h
      cases h
      rfl

end Sender

/-- Those who want to send, and the wakers that the session has of them. -/
structure SendLine (ι : Type) where
  wakers : List ι
  futures : ι → Option Sender
  asleep : Finset ι
  flight : Multiset ι

namespace SendLine

variable [DecidableEq ι] {l l' l₀ : SendLine ι}

/-- A future is polled at first, and then whenever it was woken. The session may have become any other since the last step. -/
inductive Step (T : Type) (l : SendLine ι) : SendLine ι → Prop
  | start {i : ι} {f : Sender} (hi : l.futures i = none) (hf : f.waits = false) :
      Step T l { l with futures := Function.update l.futures i f, asleep := l.asleep.erase i }
  | poll {i : ι} {f f' : Sender} {next : Option ι} {wakers : List ι} {s s' : SessionInner T} (hi : l.futures i = some f)
      (hawake : i ∉ l.asleep) (h : (f.poll i l.wakers s : Outcome Empty _) = .ok (f', next, wakers, s')) :
      Step T l {
        wakers := wakers
        futures := Function.update l.futures i f'
        asleep := if f'.waits then insert i l.asleep else l.asleep
        flight := l.flight + next.toList }
  | wake {i : ι} (hi : i ∈ l.flight) : Step T l { l with asleep := l.asleep.erase i, flight := l.flight.erase i }
  | drop {i : ι} : Step T l { l with futures := Function.update l.futures i none }

/-- Whoever waits to send is asleep, and nobody is about to be woken. -/
structure Stalled (l : SendLine ι) : Prop where
  asleep : ∀ i f, l.futures i = some f → f.waits = true → i ∈ l.asleep
  flight : l.flight = 0

lemma Stalled.step (h : l.Stalled) (hs : Step T l l') : l'.Stalled := by
  have hupdate {i j : ι} {o : Option Sender} {f : Sender} (hj : Function.update l.futures i o j = some f) :
      j = i ∧ o = some f ∨ j ≠ i ∧ l.futures j = some f := by
    obtain rfl | hne := eq_or_ne j i
    · rw [Function.update_self] at hj
      exact .inl ⟨rfl, hj⟩
    · rw [Function.update_of_ne hne] at hj
      exact .inr ⟨hne, hj⟩
  cases hs with
  | @start i f hi hf =>
    refine ⟨fun j g hj hg => ?_, h.flight⟩
    obtain ⟨-, hfg⟩ | ⟨hne, hj⟩ := hupdate hj
    · cases hfg
      exact absurd (hf.symm.trans hg) Bool.false_ne_true
    · exact Finset.mem_erase.mpr ⟨hne, h.asleep j g hj hg⟩
  | @poll i f f' next wakers s s' hi hawake hpoll =>
    -- it is not one of those who wait that is polled
    have hf : f.waits = false := Bool.eq_false_of_not_eq_true fun hf => hawake (h.asleep i f hi hf)
    refine ⟨fun j g hj hg => ?_, ?_⟩
    · dsimp only
      obtain ⟨rfl, hfg⟩ | ⟨-, hj⟩ := hupdate hj
      · cases hfg
        rw [if_pos hg]
        exact Finset.mem_insert_self j _
      · split_ifs
        · exact Finset.mem_insert_of_mem (h.asleep j g hj hg)
        · exact h.asleep j g hj hg
    · rw [Sender.next_of_not_waits hf hpoll, h.flight]
      rfl
  | wake hi =>
    rw [h.flight] at hi
    exact absurd hi (Multiset.notMem_zero _)
  | drop =>
    refine ⟨fun j g hj hg => ?_, h.flight⟩
    obtain ⟨-, hfg⟩ | ⟨-, hj⟩ := hupdate hj
    · cases hfg
    · exact h.asleep j g hj hg

lemma Stalled.run (h : l₀.Stalled) (hrun : ReflTransGen (Step T) l₀ l) : l.Stalled := by
  induction hrun with
  | refl => exact h
  | tail _ hs ih => exact ih.step hs

lemma Stalled.stays {i : ι} {f : Sender} (h : l.Stalled) (hi : l.futures i = some f) (hf : f.waits = true) (hs : Step T l l') :
    l'.futures i = some f ∨ l'.futures i = none := by
  cases hs with
  | @start j g hj _ =>
    have hne : i ≠ j := by
      rintro rfl
      exact absurd (hi.symm.trans hj) nofun
    exact .inl ((Function.update_of_ne hne _ _).trans hi)
  | @poll j g g' _ _ _ _ hj hawake _ =>
    have hne : i ≠ j := by
      rintro rfl
      exact hawake (h.asleep i f hi hf)
    exact .inl ((Function.update_of_ne hne _ _).trans hi)
  | wake _ => exact .inl hi
  | @drop j =>
    obtain rfl | hne := eq_or_ne i j
    · refine .inr ?_
      dsimp only
      rw [Function.update_self]
    · exact .inl ((Function.update_of_ne hne _ _).trans hi)

/-- A future that found the session full is never woken, and stays as it is until it is dropped. -/
theorem waiting_send_stuck (h₀ : ∀ i, l₀.futures i = none) (hflight : l₀.flight = 0) (hrun : ReflTransGen (Step T) l₀ l)
    {i : ι} {f : Sender} (hi : l.futures i = some f) (hf : f.waits = true) :
    i ∈ l.asleep ∧ l.flight = 0 ∧ ∀ l', Step T l l' → l'.futures i = some f ∨ l'.futures i = none := by
  have hstart : l₀.Stalled := ⟨fun i f hi => absurd ((h₀ i).symm.trans hi) nofun, hflight⟩
  have hl : l.Stalled := hstart.run hrun
  exact ⟨hl.asleep i f hi hf, hl.flight, fun l' hs => hl.stays hi hf hs⟩

/-- A session without slots is full. -/
theorem waiting_send_stuck_one : ∃ (l : SendLine ℕ) (f : Sender),
    ReflTransGen (Step ℕ) ⟨[], fun _ => none, ∅, 0⟩ l ∧ l.futures 0 = some f ∧ f.waits = true ∧
      ∀ l', Step ℕ l l' → l'.futures 0 = some f ∨ l'.futures 0 = none := by
  let s : SessionInner ℕ := .idle ⟨[], Nat.zero_le 2⟩
  have hpoll : ((Sender.send ⟨⟨0, false, false⟩, some [], false⟩).poll 0 [] s : Outcome Empty _) =
      .ok (.send ⟨⟨0, false, false⟩, some [], true⟩, none, [0], s) := rfl
  have hrun : ReflTransGen (Step ℕ) (⟨[], fun _ => none, ∅, 0⟩ : SendLine ℕ) _ :=
    (ReflTransGen.single (.start (i := 0) (f := .send ⟨⟨0, false, false⟩, some [], false⟩) rfl rfl)).tail
      (.poll (i := 0) rfl (Finset.notMem_erase 0 _) hpoll)
  obtain ⟨-, -, hstays⟩ := waiting_send_stuck (fun _ => rfl) rfl hrun (i := 0) rfl rfl
  exact ⟨_, _, hrun, rfl, rfl, hstays⟩

end SendLine

end Pqsnet.Session
