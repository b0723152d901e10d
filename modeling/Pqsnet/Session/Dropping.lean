import Pqsnet.Checked.Ends
import Pqsnet.Session.Ownership

/-! Dropping a document or a channel releases every document that waits there, and those that wait in their channels in
turn. -/

namespace Pqsnet.Session

open Checked Outcome

namespace SessionInner

variable {T ε : Type} {s : SessionInner T} {P : Permits} {h : Hand} {u : Undelivered} {docNo : ℕ}

/-- A call that comes back, having done `Q`. -/
abbrev Comes {α : Type} (Q : α → Prop) (x : Outcome ε α) : Prop := Ends (fun _ => False) (fun _ => False) Q x

lemma Comes.ends {α : Type} {S : Panic → Prop} {R : ε → Prop} {Q : α → Prop} {x : Outcome ε α} (hx : Comes Q x) :
    Ends S R Q x :=
  (hx.weaken fun _ h => absurd h id).imp (fun _ h => absurd h id) fun _ h => h

lemma comes_slot (hpos : 0 < s.recvTable.length) (docNo : ℕ) :
    Comes (fun i => i = s.recvIdx docNo) (slot docNo s.recvTable.length : Outcome ε ℕ) := by
  rw [slot, if_neg hpos.ne']
  rfl

lemma comes_entryAt {α : Type} {table : List α} {i : ℕ} {x : α} (hx : table[i]? = some x) :
    Comes (fun y => y = x) (entryAt table i : Outcome ε α) := by
  rw [entryAt, hx]
  rfl

/-- What is on the stack of a drop, and what is given back for it. -/
def Undelivered.item (u : Undelivered) : ℕ × ℕ := (u.docNo, u.len)

lemma waiting_setRecv {e : RecvDocMutable} {i : ℕ} (he : s.recvTable[i]? = some e) (e' : RecvDocMutable) :
    (s.setRecv i e').waiting + (e.channel.map fun c => c.readyDocs.length).getD 0 =
      s.waiting + (e'.channel.map fun c => c.readyDocs.length).getD 0 :=
  sum_map_set (fun entry : RecvDocMutable => (entry.channel.map fun c => c.readyDocs.length).getD 0) he e'

lemma lose_eq {channel : OpenChannel} (hc : channel.replyBuffer.held = 0) : s.lose channel = s := by
  have hnil : lostWith channel = [] := by
    unfold lostWith
    split
    · rename_i hr
      rw [hr] at hc
      exact absurd hc (Multiset.singleton_ne_zero _)
    · rfl
  rw [lose, hnil, List.append_nil]

lemma ends_dropRound (hinv : Inv s (h.take {u})) : Comes (fun r : List (ℕ × ℕ) × SessionInner T =>
    ∃ us : List Undelivered, r.1 = us.map Undelivered.item ∧ Moves P s (h.take {u}) r.2 (h.take us) ∧
      r.2.waiting + us.length = s.waiting) (s.dropRound u.docNo u.len : Outcome ε _) := by
  obtain ⟨e, he, -, hfin⟩ := hinv.exists_slot (u := u) (Multiset.mem_add.mpr (.inr (Multiset.mem_add.mpr
    (.inr (Multiset.mem_singleton_self u)))))
  have hreleased : Moves P s (h.take {u}) ({ s with
      recvBytesTotal := fetchSub s.recvBytesTotal u.len
      ledger := { s.ledger with released := s.ledger.released ++ [u.docNo] } }.scheduleSendControl
        variantControlFinParentClosed u.docNo) h :=
    .tail (Move.single (.release u)) (.other ⟨rfl, rfl, rfl, rfl, rfl, .inl rfl, rfl⟩)
  unfold dropRound
  apply (comes_slot hinv.recvPos u.docNo).bind
  rintro i rfl
  apply (comes_entryAt he).bind
  rintro e' rfl
  split_ifs with hno hassert
  · rw [hfin hno] at hassert
    exact absurd hassert.2 Bool.false_ne_true
  · have hretired := hreleased.tail (.retire he hno (hfin hno) (List.mem_append_right _ (List.mem_singleton_self _)))
    cases hch : e'.channel with
    | none =>
      rw [hch] at hretired
      refine ⟨[], rfl, hretired, ?_⟩
      have hw := waiting_setRecv he { e' with doc := .finParentClose, channel := none, needsSendControl := true }
      rw [hch] at hw
      exact hw
    | some channel =>
      have hreply : channel.replyBuffer.held = 0 := by
        rw [(hinv.entry _ _ he).reply channel hch]
        rfl
      have hheld : channelHeld (some channel) = ((channel.readyDocs.map Undelivered.ready : List _) : Multiset _) := by
        rw [channelHeld, OpenChannel.held, hreply]
        exact add_zero _
      rw [hch, hheld] at hretired
      refine ⟨channel.readyDocs.map Undelivered.ready, ?_, ?_, ?_⟩
      · rw [List.map_map]
        rfl
      · rw [lose_eq hreply]
        exact hretired
      · have hw := waiting_setRecv he { e' with doc := .finParentClose, channel := none, needsSendControl := true }
        rw [hch] at hw
        rw [List.length_map]
        exact hw
  · refine ⟨[], rfl, ?_, rfl⟩
    rw [Multiset.coe_nil, Hand.take_zero]
    exact hreleased

/-- The stack holds what the thread has in hand. Every turn takes a document off it, and puts on it what waited in
channels of received documents until then. -/
lemma ends_dropLoop {us : List Undelivered} {fuel : ℕ} (hinv : Inv s (h.take us)) (hfuel : s.waiting + us.length ≤ fuel) :
    Comes (fun s' => Moves P s (h.take us) s' h) (dropLoop fuel (us.map Undelivered.item) s : Outcome ε _) := by
  induction fuel generalizing s us with
  | zero =>
    obtain rfl : us = [] := List.length_eq_zero_iff.mp (by omega)
    rw [Multiset.coe_nil, Hand.take_zero]
    exact .refl
  | succ fuel ih =>
    cases us with
    | nil =>
      rw [Multiset.coe_nil, Hand.take_zero]
      exact .refl
    | cons u us =>
      rw [Hand.take_cons] at hinv ⊢
      rw [List.map_cons, dropLoop]
      apply (ends_dropRound hinv).bind
      rintro ⟨pushed, s'⟩ ⟨vs, rfl, hmoves, hwaiting⟩
      dsimp only at hmoves hwaiting ⊢
      have htake : (h.take us).take vs = h.take (vs ++ us : List Undelivered) := by
        rw [Hand.take_take, add_comm, ← Multiset.coe_add]
      rw [htake] at hmoves
      rw [← List.map_append]
      have hlen : (vs ++ us).length + 1 = vs.length + (u :: us).length := by
        rw [List.length_append, List.length_cons, add_assoc]
      refine (ih (hmoves.inv ?_) (by omega)).imp (fun _ h => h) fun s'' hs'' => hmoves.trans hs''
      exact hinv

lemma ends_dropUnfinished (hinv : Inv s (h.take {u})) :
    Comes (fun s' => Moves P s (h.take {u}) s' h) (s.dropUnfinishedRecvDoc u.docNo u.len : Outcome ε _) := by
  rw [← Multiset.coe_singleton] at hinv ⊢
  exact ends_dropLoop hinv le_rfl

lemma ends_dropEach {us : List Undelivered} (hinv : Inv s (h.take us)) :
    Comes (fun s' => Moves P s (h.take us) s' h) (dropEach (us.map Undelivered.item) s : Outcome ε _) := by
  induction us generalizing s with
  | nil =>
    rw [Multiset.coe_nil, Hand.take_zero]
    exact .refl
  | cons u us ih =>
    rw [Hand.take_cons] at hinv ⊢
    rw [List.map_cons, dropEach]
    apply (ends_dropUnfinished hinv).bind
    intro s' hmoves
    exact (ih (hmoves.inv hinv)).imp (fun _ h => h) fun s'' hs'' => hmoves.trans hs''

/-- The document that was received into a reply buffer is not released with its channel. -/
lemma ends_dropClosedChannel {channel : Option OpenChannel} (hinv : Inv s (h.take (channelHeld channel)))
    (hP : ∀ c len reply, channel = some c → c.replyBuffer = .recv len reply → P.lose) :
    Comes (fun s' => Moves P s (h.take (channelHeld channel)) s' h) (s.dropClosedChannel channel : Outcome ε _) := by
  cases channel with
  | none =>
    rw [channelHeld, Hand.take_zero]
    exact .refl
  | some c =>
    have htake : h.take (channelHeld (some c)) =
        (h.take c.replyBuffer.held).take (c.readyDocs.reverse.map Undelivered.ready : List Undelivered) := by
      rw [Hand.take_take, channelHeld, OpenChannel.held, add_comm, List.map_reverse, Multiset.coe_reverse]
      rfl
    have hitems : c.readyDocs.reverse.map (fun d => (d.docNo, d.buf.length)) =
        (c.readyDocs.reverse.map Undelivered.ready).map Undelivered.item := by
      rw [List.map_map]
      rfl
    rw [htake] at hinv ⊢
    rw [dropClosedChannel, hitems]
    apply (ends_dropEach hinv).bind
    intro s' hmoves
    by_cases hr : c.replyBuffer.held = 0
    · rw [lose_eq hr]
      rw [hr, Hand.take_zero] at hmoves ⊢
      exact hmoves
    · obtain ⟨len, reply, hr⟩ : ∃ len reply, c.replyBuffer = .recv len reply := by
        cases hb : c.replyBuffer with
        | recv len reply => exact ⟨len, reply, rfl⟩
        | _ => exact absurd (by rw [hb]; rfl) hr
      have hlost : lostWith c = [reply.docNo] := by rw [lostWith, hr]
      rw [lose, hlost]
      rw [hr] at hmoves ⊢
      exact hmoves.tail (.lose (hP c len reply rfl hr))

lemma ends_dropPrevious {orphans : List UnfinishedRecvDoc} {channel : Option OpenChannel}
    (hinv : Inv s (h.take (readyHeld orphans + channelHeld channel)))
    (hP : ∀ c len reply, channel = some c → c.replyBuffer = .recv len reply → P.lose) :
    Comes (fun s' => Moves P s (h.take (readyHeld orphans + channelHeld channel)) s' h)
      (dropEach (orphans.map fun d => (d.docNo, d.buf.length)) s >>= fun s₁ => s₁.dropClosedChannel channel : Outcome ε _) := by
  have hitems : orphans.map (fun d => (d.docNo, d.buf.length)) = (orphans.map Undelivered.ready).map Undelivered.item := by
    rw [List.map_map]
    rfl
  rw [add_comm, ← Hand.take_take] at hinv ⊢
  rw [hitems]
  apply (ends_dropEach hinv).bind
  intro s₁ hs₁
  exact (ends_dropClosedChannel (hs₁.inv hinv) hP).imp (fun _ h => h) fun s₂ hs₂ => hs₁.trans hs₂

end SessionInner

end Pqsnet.Session
