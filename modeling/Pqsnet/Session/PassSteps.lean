import Pqsnet.Session.Accounting
import Pqsnet.Session.Splitting

/-! A pass as a sequence of calls on its packets, and what holds between two of them. -/

namespace Pqsnet.Session

open Checked Outcome

variable {T : Type}

def Protocol.maxSegHeaderLen : ℕ := 1 + 8 + 8 + 8 + 8 + 4
def Protocol.minMtu : ℕ := maxSegHeaderLen + minSegDataLen

lemma varusizeLen_le (v : ℕ) : varusizeLen v ≤ 8 := by
  unfold varusizeLen
  split_ifs <;> omega

lemma Segment.header_length_le (seg : Segment) : seg.header.length ≤ 33 := by
  have hno := varusizeLen_le seg.docNo
  have hlen := varusizeLen_le seg.docLen
  have hparent := varusizeLen_le seg.docParentNo
  have hoff := varusizeLen_le seg.off
  rw [header_length]
  split_ifs <;> omega

namespace PacketBuilder

variable {p q : PacketBuilder} {full : Bool} {mtu : ℕ} {ε : Type}

/-- A packet with room for any small frame. -/
structure Ready (mtu : ℕ) (p : PacketBuilder) : Prop where
  roomy : p.Roomy
  size : p.mtu = mtu
  room : p.buf.length + minFrameAppendLen ≤ mtu

/-- There is a frame in the packet. -/
def Framed (p : PacketBuilder) : Prop := p.elicitingFrames ≠ [] ∨ p.acks ≠ []

lemma ready_new (hmtu : Protocol.minMtu ≤ mtu) (h32 : mtu < 2 ^ 32) : (new mtu).Ready mtu :=
  ⟨roomy_new (le_trans (by decide) hmtu) h32, rfl,
    le_trans (show Protocol.headerLen + minFrameAppendLen ≤ Protocol.minMtu by decide) hmtu⟩

lemma Grown.ready (h : Grown p false q) (hp : p.Ready mtu) : q.Ready mtu :=
  ⟨h.roomy, h.mtu.trans hp.size, (h.room rfl).trans_eq (h.mtu.trans hp.size)⟩

lemma Appended.framed {fs : List ElicitingFrame} (h : Appended p fs q) (hfs : fs ≠ []) : q.Framed := by
  refine .inl fun hnil => hfs ?_
  rw [h.frames] at hnil
  exact (List.append_eq_nil_iff.mp hnil).2

lemma appendControl_spec (hp : p.Ready mtu) (variant : UInt8) (docNo : ℕ) (label : Option ℕ) :
    ∃ full q, (p.appendControl variant docNo label : Outcome ε _) = .ok (full, q) ∧ Grown p full q ∧
      Appended p [.control variant docNo label] q := by
  have hlen := varusizeLen_le docNo
  have hroom := hp.room
  have hmtu := hp.size
  have hlength : (p.buf ++ [variant] ++ varu64Write docNo).length = p.buf.length + 1 + varusizeLen docNo := by
    rw [varu64Write, List.length_append, List.length_append, varusizeWrite_length, List.length_singleton]
  simp only [minFrameAppendLen] at hroom
  obtain ⟨q, hpush, -, hgrown⟩ := pushFrame_eq (ε := ε) (q := { p with buf := p.buf ++ [variant] ++ varu64Write docNo }) (i := p.buf.length)
    (by dsimp only; omega) (by dsimp only; omega) hp.roomy.mtu hp.roomy.resend (.control variant docNo label)
  have hends : Ends (fun _ => True) (fun _ => True) _ (p.appendControl variant docNo label : Outcome ε _) :=
    ends_appendControl (fun _ _ => trivial) variant docNo label
  exact ⟨_, q, hpush, ⟨hgrown.roomy, hgrown.mtu, hgrown.room⟩, hends.ok hpush⟩

lemma appendSortedAcks_spec (hp : p.Ready mtu) (acks : List UInt32) (socketIdx : Bool) (socketUid : UInt32) :
    ∃ full q rest, (p.appendSortedAcks acks socketIdx socketUid : Outcome ε _) = .ok (full, q, rest) ∧ Grown p full q ∧ p.buf <+: q.buf ∧
      (full = false ∧ q = p ∨ q.Framed ∧ q.socketBinding = some (socketIdx, socketUid)) := by
  have hroom := hp.room
  simp only [minFrameAppendLen] at hroom
  have hencode : Ends (fun _ => False) (fun _ => False) _ (AckRuns.encode p.buf acks p.mtu : Outcome ε _) :=
    AckRuns.ends_encodeFrames (b := p.buf) (List.prefix_refl _) (by omega)
  rcases henc : (AckRuns.encode p.buf acks p.mtu : Outcome ε _) with (e | e) | ⟨n, buf⟩
  · exact absurd (hencode.panic henc) id
  · exact absurd (hencode.err henc) id
  obtain ⟨hbuf, hle, -, hprogress⟩ := hencode.ok henc
  have hcap : buf.bytes.length ≤ p.mtu := hle hp.roomy.room
  by_cases hacks : acks = []
  · subst hacks
    cases henc
    refine ⟨false, p, [], ?_, ⟨hp.roomy, rfl, fun _ => hp.room.trans_eq hp.size.symm⟩, List.prefix_refl _, .inl ⟨rfl, rfl⟩⟩
    have hfull : decide (p.mtu - p.buf.length < minFrameAppendLen) = false := by
      rw [hp.size, decide_eq_false_iff_not]
      simp only [minFrameAppendLen]
      omega
    rw [appendSortedAcks]
    change (do let full ← p.isFull; Except.ok (full, p, [])) = _
    rw [isFull_eq hp.roomy, ok_bind, hfull]
  · have hpos : 0 < n := by
      refine hprogress (List.length_pos_of_ne_nil hacks) ?_
      change p.buf.length + 5 ≤ p.mtu
      rw [hp.size]
      omega
    have hroomy : Roomy { p with buf := buf.bytes, socketBinding := some (socketIdx, socketUid), acks := p.acks ++ [(socketIdx, acks.take n)] } :=
      ⟨hcap, hp.roomy.mtu, hp.roomy.resend.trans hbuf.length_le⟩
    refine ⟨_, _, acks.drop n, ?_, ⟨hroomy, rfl, room_of_not_full hroomy⟩, hbuf, .inr ⟨.inr (by simp), rfl⟩⟩
    rw [appendSortedAcks, henc, ok_bind]
    dsimp only
    rw [if_pos hpos, isFull_eq hroomy, ok_bind]

end PacketBuilder

open PacketBuilder SessionInner

/-- The tables and the current socket are there, documents are no longer than memory is, and the segments in flight are steady. -/
structure SessionInner.Valid (s : SessionInner T) : Prop where
  sendTable : 0 < s.sendTable.length
  recvTable : 0 < s.recvTable.length
  docs : ∀ e ∈ s.sendTable, ∀ d ∈ e.doc, d.data.length < 2 ^ 64
  queue : ∀ payload ∈ s.packetQueue, ∀ seg, .seg seg ∈ payload.elicitingFrames → seg.Steady
  socket : s.curIdx.toNat < s.sockets.1.length

/-- A change of the session that its packets do not depend on. -/
structure SessionInner.Quiet (s s' : SessionInner T) : Prop where
  mtu : s'.mtu = s.mtu
  sockets : s'.sockets.1.length = s.sockets.1.length
  valid : s.Valid → s'.Valid

/-- A call on the packet of a pass: whether the packet has to be sent, and what it is then. -/
inductive Tx.Call (tx : Tx T) : Bool → PacketBuilder → Prop
  | acks {acks rest : List UInt32} {socketIdx : Bool} {socketUid : UInt32} {full : Bool} {q : PacketBuilder}
      (hidx : socketIdx.toNat < tx.session.sockets.1.length)
      (h : (tx.packet.appendSortedAcks acks socketIdx socketUid : Outcome (Sent T) _) = .ok (full, q, rest)) : Tx.Call tx full q
  | control {variant : UInt8} {docNo : ℕ} {label : Option ℕ} {full : Bool} {q : PacketBuilder}
      (h : (tx.packet.appendControl variant docNo label : Outcome (Sent T) _) = .ok (full, q)) : Tx.Call tx full q
  | again {seg : Segment} {o : Option Segment} {full : Bool} {q : PacketBuilder} (hseg : seg.Steady)
      (h : (tx.packet.tryAppendSeg seg : Outcome (Sent T) _) = .ok (full, o, q)) : Tx.Call tx full q
  | segment {docNo cap : ℕ} {doc doc' : SendDoc} {isClosed : Bool} {seg : Segment} {full : Bool} {q : PacketBuilder}
      (hlen : doc.data.length < 2 ^ 64) (hcap : (tx.packet.remainingCap : Outcome (Sent T) _) = .ok cap)
      (hnew : (Segment.tryNew docNo doc isClosed cap : Outcome (Sent T) _) = .ok (.ok (seg, doc')))
      (h : (tx.packet.appendSeg seg : Outcome (Sent T) _) = .ok (full, q)) : Tx.Call tx full q

/-- A packet is sent because a call says so, or because there is no room for the next segment of a document. -/
inductive Emits (tx : Tx T) : PacketBuilder → Prop
  | call {q : PacketBuilder} (h : Tx.Call tx true q) : Emits tx q
  | noRoom {docNo cap : ℕ} {doc : SendDoc} {isClosed : Bool} (hlen : doc.data.length < 2 ^ 64)
      (hcap : (tx.packet.remainingCap : Outcome (Sent T) _) = .ok cap)
      (hnew : (Segment.tryNew docNo doc isClosed cap : Outcome (Sent T) _) = .ok (.error true)) : Emits tx tx.packet

/-- The variables of a pass between two calls, and the packet that is put aside while a payload has one of its own. -/
structure Point (T : Type) where
  tx : Tx T
  temp : Option PacketBuilder

variable {E : PacketBuilder → Prop} {H : Prop} {pt pt' : Point T} {tx : Tx T} {temp : Option PacketBuilder} {q : PacketBuilder} {b : ℕ} {full : Bool}

/-- What a pass does from one point to the next. A payload's own packet is sent without a call, and is in `E`. -/
inductive Step (E : PacketBuilder → Prop) : Point T → Point T → Prop
  | call {tx : Tx T} {temp : Option PacketBuilder} {q : PacketBuilder} (h : Tx.Call tx false q) : Step E ⟨tx, temp⟩ ⟨{ tx with packet := q }, temp⟩
  | emit {tx : Tx T} {temp : Option PacketBuilder} {q : PacketBuilder} (h : Emits tx q) (hb : 1 < tx.packetBudget) : Step E ⟨tx, temp⟩
      ⟨{ tx with queued := tx.queued ++ [q], packetBudget := tx.packetBudget - 1, packet := .new tx.session.mtu }, temp⟩
  | aside {tx : Tx T} : Step E ⟨tx, none⟩ ⟨{ tx with packet := .new tx.session.mtu }, some tx.packet⟩
  | back {tx : Tx T} {t : PacketBuilder} (hE : E tx.packet) (hb : 1 < tx.packetBudget) : Step E ⟨tx, some t⟩
      ⟨{ tx with queued := tx.queued ++ [tx.packet], packetBudget := tx.packetBudget - 1, packet := t }, none⟩
  | session {tx : Tx T} {temp : Option PacketBuilder} {s : SessionInner T} (hs : tx.session.Quiet s) :
      Step E ⟨tx, temp⟩ ⟨{ tx with session := s }, temp⟩

abbrev Run (E : PacketBuilder → Prop) : Point T → Point T → Prop := Relation.ReflTransGen (Step E)

/-- How a pass returns that has used up its budget. That the packet that was put aside is sent then is allowed by `H`. -/
inductive Ended (E : PacketBuilder → Prop) (H : Prop) (pt : Point T) (out : Sent T) : Prop
  | emit {pt' : Point T} {q : PacketBuilder} (h : Run E pt pt') (he : Emits pt'.tx q) (hb : pt'.tx.packetBudget = 1) (ht : pt'.temp = none)
      (hq : out.queued = pt'.tx.queued ++ [q]) (hnow : out.sentNow = none) : Ended E H pt out
  | spill {pt' : Point T} {q t : PacketBuilder} (hH : H) (h : Run E pt pt') (he : Emits pt'.tx q ∨ q = pt'.tx.packet) (hb : pt'.tx.packetBudget = 1)
      (ht : pt'.temp = some t) (hq : out.queued = pt'.tx.queued ++ [q] ++ [t]) (hnow : out.sentNow = none) : Ended E H pt out

lemma Segment.partHeaderLen_le (docNo : ℕ) (doc : SendDoc) : Segment.partHeaderLen docNo doc ≤ 33 := by
  have hno := varusizeLen_le docNo
  have hparent := varusizeLen_le doc.parentNo
  have hoff := varusizeLen_le doc.nextSegOff
  have hlen := varusizeLen_le doc.data.length
  rw [partHeaderLen]
  simp only [varu64Len]
  split_ifs <;> omega

/-- What a call has done: there is a frame in the packet, or it is as it was, because there was nothing to append, or no room for the
longest header. -/
structure Called (s : SessionInner T) (p : PacketBuilder) (full : Bool) (q : PacketBuilder) : Prop where
  grown : Grown p full q
  buf : p.buf <+: q.buf
  frame : q.Framed ∨ q = p ∧ (full = true → p.mtu < p.buf.length + 49)
  bound : ∀ b ∈ q.socketBinding, b ∈ p.socketBinding ∨ b.1.toNat < s.sockets.1.length

lemma Called.of_appended {s : SessionInner T} {p : PacketBuilder} {fs : List ElicitingFrame} (hg : Grown p full q) (h : Appended p fs q)
    (hfs : fs ≠ []) : Called s p full q := by
  have hbind : q.socketBinding = p.socketBinding := congrArg (fun x => x.2.1) h.fixed
  exact ⟨hg, h.buf, .inl (h.framed hfs), fun b hb => .inl (hbind ▸ hb)⟩

lemma Tx.Call.called (h : Tx.Call tx full q) (hp : tx.packet.Ready tx.session.mtu) : Called tx.session tx.packet full q := by
  have hcap : tx.packet.buf.length + (tx.packet.mtu - tx.packet.buf.length) = tx.packet.mtu := Nat.add_sub_cancel' hp.roomy.room
  cases h with
  | @acks acks rest socketIdx socketUid _ _ hidx h =>
    obtain ⟨_, _, _, h', hg, hbuf, hcase⟩ := appendSortedAcks_spec (ε := Sent T) hp acks socketIdx socketUid
    cases h.symm.trans h'
    rcases hcase with ⟨rfl, rfl⟩ | ⟨hframed, hbind⟩
    · exact ⟨hg, hbuf, .inr ⟨rfl, fun hf => absurd hf Bool.false_ne_true⟩, fun b hb => .inl hb⟩
    · refine ⟨hg, hbuf, .inl hframed, fun b hb => .inr ?_⟩
      rw [hbind] at hb
      cases hb
      exact hidx
  | @control variant docNo label _ _ h =>
    obtain ⟨_, _, h', hg, happ⟩ := appendControl_spec (ε := Sent T) hp variant docNo label
    cases h.symm.trans h'
    exact .of_appended hg happ (List.cons_ne_nil _ _)
  | @again seg o _ _ hseg h =>
    obtain ⟨_, _, _, h', hloss, hg, -⟩ := tryAppendSeg_spec (ε := Sent T) hp.roomy hseg.exact hseg.range
    cases h.symm.trans h'
    cases hloss with
    | refused hno =>
      have hlength : seg.cutHeader.2 = seg.head.header.length := hseg.exact.head
      have hle := seg.head.header_length_le
      refine ⟨hg, List.prefix_refl _, .inr ⟨rfl, fun _ => ?_⟩, fun b hb => .inl hb⟩
      simp only [minSegDataLen] at hno
      omega
    | whole _ happ => exact .of_appended hg happ (List.cons_ne_nil _ _)
    | part _ _ _ happ _ => exact .of_appended hg happ (List.cons_ne_nil _ _)
  | @segment docNo cap doc doc' isClosed seg _ _ hlen hrem hnew h =>
    rw [remainingCap, sub_ok hp.roomy.room, ok_inj] at hrem
    have hfits := (Segment.tryNew_next hlen hnew).fits
    obtain ⟨_, _, form, h', -, happ, hg⟩ := appendSeg_fits (ε := Sent T) hp.roomy (hrem ▸ hcap) (hfits.1 ▸ hfits.2)
    cases h.symm.trans h'
    exact .of_appended hg happ (List.cons_ne_nil _ _)

lemma Emits.called (h : Emits tx q) (hp : tx.packet.Ready tx.session.mtu) : Called tx.session tx.packet true q := by
  cases h with
  | call h => exact h.called hp
  | @noRoom docNo cap doc isClosed hlen hrem hnew =>
    have hle := Segment.partHeaderLen_le docNo doc
    have hroom := hp.roomy.room
    rw [remainingCap, sub_ok hp.roomy.room, ok_inj] at hrem
    refine ⟨⟨hp.roomy, rfl, fun h => absurd h (by decide)⟩, List.prefix_refl _, .inr ⟨rfl, fun _ => ?_⟩, fun b hb => .inl hb⟩
    rcases (Segment.tryNew_eq_error hlen).mp hnew with ⟨hf, -⟩ | ⟨-, -, hno, -⟩
    · cases hf
    · simp only [minSegDataLen] at hno
      omega

/-- A packet of the pass that can be appended to. -/
structure Open (s : SessionInner T) (p : PacketBuilder) : Prop where
  ready : p.Ready s.mtu
  nonempty : p.buf ≠ []
  bound : ∀ b ∈ p.socketBinding, b.1.toNat < s.sockets.1.length

lemma Called.isOpen {s : SessionInner T} {p : PacketBuilder} (h : Called s p false q) (hp : Open s p) : Open s q :=
  ⟨h.grown.ready hp.ready, fun hnil => hp.nonempty (List.prefix_nil.mp (hnil ▸ h.buf)), fun b hb => (h.bound b hb).elim (hp.bound b) id⟩

lemma Open.quiet {s s' : SessionInner T} {p : PacketBuilder} (hp : Open s p) (h : s.Quiet s') : Open s' p :=
  ⟨h.mtu ▸ hp.ready, hp.nonempty, fun b hb => h.sockets ▸ hp.bound b hb⟩

/-- What holds between two calls of a pass that began with a budget of `b`. -/
structure Good (b : ℕ) (pt : Point T) : Prop where
  mtu : Protocol.minMtu ≤ pt.tx.session.mtu ∧ pt.tx.session.mtu < 2 ^ 31
  valid : pt.tx.session.Valid
  packet : Open pt.tx.session pt.tx.packet
  temp : ∀ t ∈ pt.temp, Open pt.tx.session t
  budget : 0 < pt.tx.packetBudget
  count : pt.tx.queued.length + pt.tx.packetBudget = b
  queued : ∀ q ∈ pt.tx.queued, q.buf.length ≤ pt.tx.session.mtu

lemma Good.isOpen_new (h : Good b pt) : Open pt.tx.session (.new pt.tx.session.mtu) :=
  ⟨ready_new h.mtu.1 (h.mtu.2.trans (by decide)), List.cons_ne_nil _ _, fun b hb => absurd hb (Option.not_mem_none b)⟩

lemma Good.concat {s : SessionInner T} {queued : List PacketBuilder} (h : ∀ q ∈ queued, q.buf.length ≤ s.mtu) (hq : q.buf.length ≤ s.mtu) :
    ∀ p ∈ queued ++ [q], p.buf.length ≤ s.mtu := by
  intro p hp
  rcases List.mem_append.mp hp with hp | hp
  · exact h p hp
  · rw [List.mem_singleton.mp hp]
    exact hq

lemma Emits.length_le (h : Emits tx q) (hp : tx.packet.Ready tx.session.mtu) : q.buf.length ≤ tx.session.mtu := by
  have hg := (h.called hp).grown
  rw [← hp.size, ← hg.mtu]
  exact hg.roomy.room

lemma Good.step (h : Good b pt) (hs : Step E pt pt') : Good b pt' := by
  obtain ⟨hmtu, hvalid, hpacket, htemp, hbudget, hcount, hqueued⟩ := h
  have hnew := Good.isOpen_new ⟨hmtu, hvalid, hpacket, htemp, hbudget, hcount, hqueued⟩
  cases hs with
  | call hc => exact ⟨hmtu, hvalid, (hc.called hpacket.ready).isOpen hpacket, htemp, hbudget, hcount, hqueued⟩
  | emit he hb =>
    refine ⟨hmtu, hvalid, hnew, htemp, Nat.sub_pos_of_lt hb, ?_, Good.concat hqueued (he.length_le hpacket.ready)⟩
    dsimp only at hcount ⊢
    rw [List.length_append, List.length_singleton]
    omega
  | aside =>
    refine ⟨hmtu, hvalid, hnew, ?_, hbudget, hcount, hqueued⟩
    rintro t ⟨rfl⟩
    exact hpacket
  | back hE hb =>
    refine ⟨hmtu, hvalid, htemp _ rfl, fun t ht => absurd ht (Option.not_mem_none t), Nat.sub_pos_of_lt hb, ?_, ?_⟩
    · dsimp only at hcount ⊢
      rw [List.length_append, List.length_singleton]
      omega
    · exact Good.concat hqueued ((Nat.le_add_right _ _).trans hpacket.ready.room)
  | session hs =>
    refine ⟨hs.mtu.symm ▸ hmtu, hs.valid hvalid, hpacket.quiet hs, fun t ht => (htemp t ht).quiet hs, hbudget, hcount, ?_⟩
    exact fun q hq => (hqueued q hq).trans_eq hs.mtu.symm

lemma Good.run (h : Good b pt) (hr : Run E pt pt') : Good b pt' := by
  induction hr with
  | refl => exact h
  | tail _ hs ih => exact ih.step hs

lemma SessionInner.Quiet.refl (s : SessionInner T) : s.Quiet s := ⟨rfl, rfl, id⟩

lemma SessionInner.Quiet.trans {s s' s'' : SessionInner T} (h : s.Quiet s') (h' : s'.Quiet s'') : s.Quiet s'' :=
  ⟨h'.mtu.trans h.mtu, h'.sockets.trans h.sockets, fun hs => h'.valid (h.valid hs)⟩

lemma Run.quiet (hr : Run E pt pt') : pt.tx.session.Quiet pt'.tx.session := by
  induction hr with
  | refl => exact .refl _
  | tail _ hs ih =>
    cases hs with
    | session hs => exact ih.trans hs
    | call _ | emit _ _ | aside | back _ _ => exact ih

/-- A part of a pass that begins at `pt`. That its loops come to an end is shown elsewhere. -/
abbrev Walks (E : PacketBuilder → Prop) (H : Prop) (pt : Point T) (x : Outcome (Sent T) (Tx T)) : Prop :=
  Ends (· = .loopBound) (Ended E H pt) (fun tx => Run E pt ⟨tx, pt.temp⟩) x

section Walks

variable {out : Sent T} {x : Outcome (Sent T) (Tx T)} {last : SessionInner T → SessionInner T} {docNo i : ℕ}

lemma Ended.after (h : Run E pt pt') (he : Ended E H pt' out) : Ended E H pt out := by
  cases he with
  | emit h' he hb ht hq hnow => exact .emit (h.trans h') he hb ht hq hnow
  | spill hH h' he hb ht hq hnow => exact .spill hH (h.trans h') he hb ht hq hnow

lemma Walks.after (h : Run E pt ⟨tx, pt.temp⟩) (hx : Walks E H ⟨tx, pt.temp⟩ x) : Walks E H pt x :=
  Ends.imp hx (fun _ he => he.after h) fun _ hr => h.trans hr

lemma Walks.bind {f : Tx T → Outcome (Sent T) (Tx T)} (hx : Walks E H pt x) (hf : ∀ tx, Run E pt ⟨tx, pt.temp⟩ → Walks E H ⟨tx, pt.temp⟩ (f tx)) :
    Walks E H pt (x >>= f) :=
  Ends.bind hx fun tx hr => (hf tx hr).after hr

variable {entry : SendDocMutable}

end Walks

section Pass

variable [LT T] [DecidableLT T] {s : SessionInner T} {pass : Pass T} {out : Sent T}

/-- How a pass returns that has looked at everything: it sends its last packet itself. -/
structure Finished (E : PacketBuilder → Prop) (pass : Pass T) (pt : Point T) (out : Sent T) (tx : Tx T) (datagram : Datagram) : Prop where
  run : Run E pt ⟨tx, none⟩
  queued : out.queued = tx.queued
  sentNow : out.sentNow = some (tx.packet, datagram)
  sent : (sendNow tx.session pass tx.packet : Outcome (Sent T) _) = .ok (out.session, datagram)

end Pass

end Pqsnet.Session
