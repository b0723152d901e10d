import Pqsnet.Session.DocumentPass

/-! What the application does with its handles and futures is made of small changes, too, and so is what a pass does
with one document. -/

namespace Pqsnet.Session

open Checked Outcome SessionInner

variable {T ε : Type} {P : Allows} {s s' : SessionInner T} {U U' V V' W : Multiset Token} {i docNo : ℕ} {t : Token} {c : Channel}

/-- What a list of handles amounts to. -/
def handleTokens (cs : List Channel) : Multiset Token := cs.map fun c => Token.handle c.docNo

lemma handleTokens_append (cs cs' : List Channel) : handleTokens (cs ++ cs') = handleTokens cs + handleTokens cs' := by
  rw [handleTokens, List.map_append, ← Multiset.coe_add]
  rfl

lemma handleTokens_singleton (c : Channel) : handleTokens [c] = {.handle c.docNo} := rfl

section Written

variable {e : RecvDocMutable} {e' : SendDocMutable}

lemma channelOf_setRecv (hside : ¬ s.isSending docNo) (he : s.recvTable[s.recvIdx docNo]? = some e) (x : RecvDocMutable)
    (hno : x.docNo = docNo) : (s.setRecv (s.recvIdx docNo) x).channelOf docNo = x.channel := by
  have hs := writesRecv_setRecv s (s.recvIdx docNo) x
  exact channelOf_recv (by rwa [hs.isSending]) (hs.written he) hno

lemma channelOf_setSend (hside : s.isSending docNo) (he : s.sendTable[s.sendIdx docNo]? = some e') (x : SendDocMutable)
    (hno : x.docNo = docNo) : (s.setSend (s.sendIdx docNo) x).channelOf docNo = x.channel := by
  have hs := writesSend_setSend s (s.sendIdx docNo) x
  exact channelOf_send (by rwa [hs.isSending]) (hs.written he) hno

lemma channelOf_setChannel {ch : OpenChannel} (hc : s.channelOf docNo = some ch) (x : Option OpenChannel) :
    (s.setChannel docNo x).channelOf docNo = x := by
  obtain ⟨e, he, hno, -, hside, hset⟩ | ⟨e, he, hno, -, hside, hset⟩ := channelOf_cases hc
  · rw [hset]
    exact channelOf_setSend hside he _ hno
  · rw [hset]
    exact channelOf_setRecv hside he _ hno

end Written

lemma turn_take {ch : OpenChannel} (hc : s.channelOf docNo = some ch) (ch' : OpenChannel)
    (hr : ch'.replyBuffer = ch.replyBuffer ∨ (ch'.replyBuffer = .none ∧ ∀ b, ch.replyBuffer ≠ .awaiting b))
    (hcount : ch'.refCount = ch.refCount) (hheld : copies ch.held = copies ch'.held + W) :
    Turn P s 0 (s.setChannel docNo (some ch')) W := by
  refine Turn.single (.update hc ch' hr (by rw [hcount]; exact .same) rfl) rfl ?_
  have hset := tokens_setChannel hc (some ch')
  refine add_right_cancel (b := copies ch'.held) ?_
  rw [add_zero, add_assoc, add_comm W, ← hheld, hset]
  rfl

namespace Channel

lemma turn_takeReady {r : Option (Option UnfinishedRecvDoc)} (h : (c.takeReady s : Outcome ε _) = .ok (r, s')) :
    Turn P s 0 s' (handleTokens (Machine.taken r)) := by
  rw [takeReady] at h
  obtain ⟨⟨r', s₁⟩, hupdate, h'⟩ := bind_eq_ok.mp h
  obtain ⟨ch, a, ch', hc, hg, rfl, rfl⟩ | ⟨-, rfl, rfl⟩ := updateChannel_eq_ok hupdate
  · obtain ⟨rfl, rfl⟩ := Prod.mk.inj (ok_inj.mp hg)
    cases hlast : ch.readyDocs.getLast? with
    | none =>
      have hnil : ch.readyDocs.dropLast = ch.readyDocs := by
        rw [List.getLast?_eq_none_iff.mp hlast]
        rfl
      rw [hlast] at h'
      obtain ⟨rfl, rfl⟩ := Prod.mk.inj (ok_inj.mp h')
      rw [hnil, setChannel_self hc]
      exact Turn.refl
    | some d =>
      rw [hlast] at h'
      obtain ⟨rfl, hs'⟩ := Prod.mk.inj (ok_inj.mp h')
      have hheld : copies ch.held = copies (OpenChannel.held { ch with readyDocs := ch.readyDocs.dropLast }) + {.copy d.docNo} := by
        have hready : readyHeld ch.readyDocs = readyHeld ch.readyDocs.dropLast + {.ready d} := by
          rw [← readyHeld_append, List.dropLast_append_getLast? d hlast]
        rw [OpenChannel.held, OpenChannel.held, hready, copies_add, copies_add, copies_add, copies_singleton, add_right_comm]
        rfl
      have htake : Turn P s 0 _ _ := turn_take hc { ch with readyDocs := ch.readyDocs.dropLast } (.inl rfl) rfl hheld
      generalize s.setChannel c.docNo (some { ch with readyDocs := ch.readyDocs.dropLast }) = s₁ at hs' htake
      have hview : s'.view = s₁.view := by
        rw [← hs', view_schedule (by decide)]
        rfl
      refine htake.trans (Turn.single (.deliver hview) rfl ?_)
      rw [tokens_of_view hview]
      rfl
  · obtain ⟨rfl, rfl⟩ := Prod.mk.inj (ok_inj.mp h')
    exact Turn.refl

lemma turn_clone {c' : Channel} (h : (c.clone s : Outcome ε _) = .ok (c', s')) :
    Turn P s {.handle c.docNo} s' ({.handle c.docNo} + handleTokens [c']) := by
  rw [clone] at h
  obtain ⟨⟨r, s₁⟩, hupdate, h'⟩ := bind_eq_ok.mp h
  obtain ⟨rfl, rfl⟩ := Prod.mk.inj (ok_inj.mp h')
  have hh : .handle c.docNo ∈ s.tokens + {.handle c.docNo} := by simp
  obtain ⟨ch, a, ch', hc, hg, rfl, rfl⟩ | ⟨hc, rfl, rfl⟩ := updateChannel_eq_ok hupdate
  · obtain ⟨n, hn, hg⟩ := bind_eq_ok.mp hg
    obtain ⟨rfl, rfl⟩ := Prod.mk.inj (ok_inj.mp hg)
    have hU : Reckons P True c.docNo (some ch.refCount) (some n) (s.tokens + {.handle c.docNo})
        (s.tokens + {.handle c.docNo} + {.handle c.docNo}) := by
      rw [eq_of_add_eq_ok hn]
      exact .add trivial hh
    refine Turn.single (.update hc { ch with refCount := n } (.inl rfl) hU rfl) rfl ?_
    rw [add_right_cancel (tokens_setChannel hc (some { ch with refCount := n })), add_assoc]
    rfl
  · exact Turn.single (.clone hc hh rfl) rfl (add_assoc _ _ _)

lemma modifySend_setSend {e : SendDocMutable} (he : s.sendTable[s.sendIdx docNo]? = some e) (e' : SendDocMutable)
    (g : SendDocMutable → SendDocMutable) :
    (s.setSend (s.sendIdx docNo) e').modifySend docNo g = s.setSend (s.sendIdx docNo) (g e') := by
  have hidx : (s.setSend (s.sendIdx docNo) e').sendIdx docNo = s.sendIdx docNo := sendIdx_of_eq (List.length_set ..) _
  have hslot : (s.setSend (s.sendIdx docNo) e').sendTable[s.sendIdx docNo]? = some e' := getElem?_set_of_getElem? he e'
  rw [modifySend, hidx, modify_eq_set hslot]
  simp only [setSend, List.set_set]

lemma modifyRecv_setRecv {e : RecvDocMutable} (he : s.recvTable[s.recvIdx docNo]? = some e) (e' : RecvDocMutable)
    (g : RecvDocMutable → RecvDocMutable) :
    (s.setRecv (s.recvIdx docNo) e').modifyRecv docNo g = s.setRecv (s.recvIdx docNo) (g e') := by
  have hidx : (s.setRecv (s.recvIdx docNo) e').recvIdx docNo = s.recvIdx docNo := recvIdx_of_eq (List.length_set ..) _
  have hslot : (s.setRecv (s.recvIdx docNo) e').recvTable[s.recvIdx docNo]? = some e' := getElem?_set_of_getElem? he e'
  rw [modifyRecv, hidx, modify_eq_set hslot]
  simp only [setRecv, List.set_set]

lemma closes_schedule (s : SessionInner T) (docNo : ℕ) : (s.scheduleSendControl variantControlClose docNo).closes = s.closes ++ [docNo] := by
  rw [closes, scheduleSendControl, List.filterMap_append]
  rfl

lemma closing_cases {ch : OpenChannel} (hc : s.channelOf c.docNo = some ch) :
    (∃ e, s.isSending c.docNo ∧ s.sendTable[s.sendIdx c.docNo]? = some e ∧ e.docNo = c.docNo ∧ e.channel = some ch ∧
      c.markClose (s.setChannel c.docNo none) =
        s.setSend (s.sendIdx c.docNo) { e with channel := none, needsSendClose := true }) ∨
    (∃ e, ¬ s.isSending c.docNo ∧ s.recvTable[s.recvIdx c.docNo]? = some e ∧ e.docNo = c.docNo ∧ e.channel = some ch ∧
      c.markClose (s.setChannel c.docNo none) =
        s.setRecv (s.recvIdx c.docNo) { e with channel := none, needsSendControl := true }) := by
  obtain ⟨e, he, hno, hch, hside, hwrite⟩ | ⟨e, he, hno, hch, hside, hwrite⟩ := channelOf_cases hc
  · refine .inl ⟨e, hside, he, hno, hch, ?_⟩
    rw [markClose, if_pos (by rwa [isSending_setChannel]), hwrite, modifySend_setSend he]
  · refine .inr ⟨e, hside, he, hno, hch, ?_⟩
    rw [markClose, if_neg (by rwa [isSending_setChannel]), hwrite, modifyRecv_setRecv he]

lemma turn_closing {ch : OpenChannel} (hc : s.channelOf c.docNo = some ch) (ht : t.Closes P c.docNo) :
    Turn P s {t} ((c.markClose (s.setChannel c.docNo none)).scheduleSendControl variantControlClose c.docNo)
      (copies ch.held + {t}) := by
  have hmem : t ∈ s.tokens + {t} := by simp
  obtain ⟨e, hside, he, hno, hch, hmark⟩ | ⟨e, hside, he, hno, hch, hmark⟩ := closing_cases hc
  · have hset := tokens_setSend he { e with channel := none, needsSendClose := true }
    rw [SendDocMutable.held, SendDocMutable.held, hch, channelHeld, channelHeld, copies_zero, add_zero] at hset
    refine Turn.single (.closeSend hside he hno (by rw [hch]; rfl) hmem ht ?_) rfl ?_
    · rw [hmark, SessionInner.view, closes_schedule]
      rfl
    · rw [← hset, hmark, add_assoc]
      rfl
  · have hset := tokens_takeChannel he { e with channel := none, needsSendControl := true } rfl rfl rfl
    rw [hch, channelHeld] at hset
    refine Turn.single (.closeRecv hside he hno (by rw [hch]; rfl) hmem ht ?_) rfl ?_
    · rw [hmark, SessionInner.view, closes_schedule]
      rfl
    · rw [← hset, hmark, add_assoc]
      rfl

lemma channelOf_closed {ch : OpenChannel} (hc : s.channelOf c.docNo = some ch) :
    ((c.markClose (s.setChannel c.docNo none)).scheduleSendControl variantControlClose c.docNo).channelOf c.docNo = none := by
  obtain ⟨e, hside, he, hno, -, hmark⟩ | ⟨e, hside, he, hno, -, hmark⟩ := closing_cases hc
  · rw [hmark]
    exact channelOf_setSend hside he _ hno
  · rw [hmark]
    exact channelOf_setRecv hside he _ hno

lemma turn_closed {ch ch' : OpenChannel} (hc : s.channelOf c.docNo = some ch) (hready : ch'.readyDocs = ch.readyDocs)
    (ht : t.Closes P c.docNo) :
    Turn P s {t} ((c.markClose (s.setChannel c.docNo none)).scheduleSendControl variantControlClose c.docNo)
      (tasksTokens (dropDocs (some ch')) + {t}) := by
  refine (turn_closing hc ht).trans (Turn.frame (Turn.lose_le ?_ (future_not_mem_copies _)) _)
  have hdrop : dropDocs (some ch') = dropDocs (some ch) := by rw [dropDocs, dropDocs, hready]
  rw [hdrop]
  exact tasksTokens_dropDocs (some ch)

lemma closeSection_eq_ok {g : OpenChannel → Outcome ε (Bool × OpenChannel)} {done : Done T} (h : c.closeSection g s = .ok done) :
    (∃ ch close ch', s.channelOf c.docNo = some ch ∧ g ch = .ok (close, ch') ∧
      done = if close then ⟨(c.markClose (s.setChannel c.docNo none)).scheduleSendControl variantControlClose c.docNo,
        dropDocs (some ch'), false⟩ else ⟨s.setChannel c.docNo (some ch'), [], false⟩) ∨
    (s.channelOf c.docNo = none ∧ done = ⟨s, [], false⟩) := by
  rw [closeSection] at h
  obtain ⟨⟨no, ch⟩, hslot, h⟩ := bind_eq_ok.mp h
  have hc := channelOf_of_channelSlot hslot
  cases ch with
  | none => exact .inr ⟨by rw [hc, ite_self], (ok_inj.mp h).symm⟩
  | some ch =>
    dsimp only at h
    split_ifs at h with hno
    · obtain ⟨⟨close, ch'⟩, hg, h⟩ := bind_eq_ok.mp h
      refine .inl ⟨ch, close, ch', by rw [hc, if_pos hno], hg, ?_⟩
      cases close <;> exact (ok_inj.mp h).symm
    · exact .inr ⟨by rw [hc, if_neg hno], (ok_inj.mp h).symm⟩

lemma turn_closeIf {done : Done T} {b : Bool} (h : (c.closeSection (fun ch => .ok (b, ch)) s : Outcome ε _) = .ok done) :
    Turn P s {.handle c.docNo} done.session (tasksTokens done.tasks + {.handle c.docNo}) := by
  obtain ⟨ch, close, ch', hc, hg, rfl⟩ | ⟨-, rfl⟩ := closeSection_eq_ok h
  · obtain ⟨rfl, rfl⟩ := Prod.mk.inj (ok_inj.mp hg)
    cases b with
    | true => exact turn_closed hc rfl (.inl rfl)
    | false =>
      rw [if_neg Bool.false_ne_true, setChannel_self hc]
      exact Turn.lose_le (zero_add _).le (by simp)
  · exact Turn.lose_le (zero_add _).le (by simp)

lemma turn_forget (hc : s.channelOf docNo = none) (ht : t.Closes P docNo) : Turn P s (V + {t}) s V := by
  refine Turn.single (.forget ?_ rfl) (add_assoc _ _ _) rfl
  rintro no range rfl
  obtain h | ⟨range', h, hdrop⟩ := ht
  · cases h
  · cases h
    exact ⟨hdrop, hc⟩

lemma turn_dropSection {done : Done T} (ht : t.Closes P c.docNo) (h : (c.dropSection s : Outcome ε _) = .ok done) :
    Turn P s {t} done.session (tasksTokens done.tasks) := by
  obtain ⟨ch, close, ch', hc, hg, rfl⟩ | ⟨hc, rfl⟩ := closeSection_eq_ok h
  · obtain ⟨n, hn, hg⟩ := bind_eq_ok.mp hg
    obtain ⟨rfl, rfl⟩ := Prod.mk.inj (ok_inj.mp hg)
    obtain ⟨hle, rfl⟩ := sub_eq_ok.mp hn
    split_ifs with hzero
    · exact (turn_closed hc rfl ht).trans (turn_forget (channelOf_closed hc) ht)
    · have hU : Reckons P True c.docNo (some ch.refCount) (some (ch.refCount - 1)) (s.tokens + {t}) s.tokens :=
        .drop trivial (by simp at hzero; omega) ht
      refine Turn.single (.update hc { ch with refCount := ch.refCount - 1 } (.inl rfl) hU rfl) rfl ?_
      rw [add_right_cancel (tokens_setChannel hc (some { ch with refCount := ch.refCount - 1 }))]
      exact (add_zero _).symm
  · have hforget := turn_forget (V := 0) hc ht
    rwa [zero_add] at hforget

end Channel

namespace SendReplyFuture

variable {reply : Channel} {range : BufRange}

/-- What a future that was polled is made of. -/
def Polled.tokens (reply : Channel) (range : BufRange) : Polled → Multiset Token
  | .pending => {.future reply.docNo range}
  | .error _ => handleTokens [reply]
  | .ready _ c => handleTokens [c, reply]

/-- A future that gets no reply any more turns into its handle. -/
lemma turn_complete (hc : ∀ ch, s.channelOf reply.docNo = some ch → ∀ b, ch.replyBuffer ≠ .awaiting b) :
    Turn P s {.future reply.docNo range} s (handleTokens [reply]) :=
  Turn.single (.complete hc rfl) rfl rfl

lemma turn_ready {ch : OpenChannel} {len : ℕ} {u : UnreleasedChannel} (hc : s.channelOf reply.docNo = some ch)
    (hreply : ch.replyBuffer = .recv len u) (hs : s'.view = (s.setChannel reply.docNo (some { ch with replyBuffer := .none })).view) :
    Turn P s {.future reply.docNo range} s' ({.handle u.docNo} + handleTokens [reply]) := by
  have hheld : copies ch.held = copies (OpenChannel.held { ch with replyBuffer := .none }) + {.copy u.docNo} := by
    rw [OpenChannel.held, OpenChannel.held, hreply, copies_add, copies_add, add_assoc]
    exact congrArg _ (zero_add _).symm
  have htake : Turn P s 0 _ _ := turn_take hc { ch with replyBuffer := .none }
    (.inr ⟨rfl, fun b => by rw [hreply]; exact SpecialReplyState.noConfusion⟩) rfl hheld
  have hdeliver : Turn P _ {.copy u.docNo} s' {.handle u.docNo} :=
    Turn.single (.deliver hs) rfl (by rw [tokens_of_view hs])
  have hnone : s'.channelOf reply.docNo = some { ch with replyBuffer := .none } := by
    rw [channelOf_of_eq (isInitiator_of_view hs) (recvTable_of_view hs) (sendTable_of_view hs)]
    exact channelOf_setChannel hc _
  have hcomplete : Turn P s' {.future reply.docNo range} s' (handleTokens [reply]) := turn_complete fun x hx b => by
    cases hnone.symm.trans hx
    exact SpecialReplyState.noConfusion
  have hboth := (htake.trans hdeliver).frame {.future reply.docNo range}
  have hlast := hcomplete.frame {.handle u.docNo}
  rw [zero_add] at hboth
  rw [add_comm, add_comm (handleTokens [reply])] at hlast
  exact hboth.trans hlast

lemma turn_pollSent {r : Polled} (h : (pollSent reply s : Outcome ε _) = .ok (r, s')) :
    Turn P s {.future reply.docNo range} s' (r.tokens reply range) := by
  rw [pollSent] at h
  obtain ⟨⟨r', s₁⟩, hupdate, h'⟩ := bind_eq_ok.mp h
  obtain ⟨ch, a, ch', hc, hg, rfl, rfl⟩ | ⟨hc, rfl, rfl⟩ := updateChannel_eq_ok hupdate
  · have hg := ok_inj.mp hg
    rw [takeReply] at hg
    split at hg
    · obtain ⟨rfl, rfl⟩ := Prod.mk.inj hg
      obtain ⟨rfl, rfl⟩ := Prod.mk.inj (ok_inj.mp h')
      rw [setChannel_self hc]
      exact Turn.refl
    · rename_i len u hreply
      obtain ⟨rfl, rfl⟩ := Prod.mk.inj hg
      obtain ⟨rfl, rfl⟩ := Prod.mk.inj (ok_inj.mp h')
      exact turn_ready hc hreply rfl
    · rename_i hreply
      obtain ⟨rfl, rfl⟩ := Prod.mk.inj hg
      obtain ⟨rfl, rfl⟩ := Prod.mk.inj (ok_inj.mp h')
      rw [setChannel_self hc]
      refine turn_complete fun x hx b => ?_
      cases hc.symm.trans hx
      rw [hreply]
      exact SpecialReplyState.noConfusion
  · obtain ⟨rfl, rfl⟩ := Prod.mk.inj (ok_inj.mp h')
    refine turn_complete fun x hx => ?_
    cases hc.symm.trans hx

end SendReplyFuture

namespace Call

variable {call : Call} {next : Next}

/-- What a call gives to its caller. -/
def gives (call : Call) : Next → Multiset Token
  | .inr (.ok docNo) =>
    match call.future with
    | some fut => {.future docNo fut.buffer}
    | none => {.handle docNo}
  | _ => 0

lemma turn_count (hP : P.send) {sendTotal sendDocNo : ℕ}
    (hs : s'.view = { s.view with sendTotal := sendTotal, sendDocNo := sendDocNo }) : Turn P s V s' V :=
  Turn.single (.count hP hs) rfl (by rw [tokens_of_tables (congrArg View.recvTable hs) (congrArg View.sendTable hs)])

lemma turn_lock (hP : P.send) (hside : s.isSending docNo) {e : SendDocMutable} (he : s.sendTable[s.sendIdx docNo]? = some e)
    (hfree : ¬ (e.channel.isSome ∨ e.doc.isSome)) :
    Turn P s 0 (s.setSend (s.sendIdx docNo)
        ⟨docNo, false, some ⟨docNo, call.hasSpecialParent, false, 0, call.doc⟩, some ⟨1, [], call.replyBuffer⟩⟩)
      (call.gives (.inr (.ok docNo))) := by
  obtain ⟨hchannel, hdoc⟩ := not_or.mp hfree
  have hfree : e.channel = none ∧ e.doc = none := ⟨by simpa using hchannel, by simpa using hdoc⟩
  have hopen {t : Token} (hempty : call.replyBuffer.held = 0)
      (hc : call.replyBuffer = .none ∧ t = .handle docNo ∨
        ∃ range, call.replyBuffer = .awaiting (some range) ∧ t = .future docNo range) :
      Turn P s 0 (s.setSend (s.sendIdx docNo)
        ⟨docNo, false, some ⟨docNo, call.hasSpecialParent, false, 0, call.doc⟩, some ⟨1, [], call.replyBuffer⟩⟩) {t} := by
    refine Turn.single (.openChannel (t := t) hP hside he hfree rfl rfl Bool.false_ne_true ?_ (writesSend_setSend _ _ _)) (add_zero _).symm ?_
    · obtain ⟨hr, rfl⟩ | ⟨range, hr, rfl⟩ := hc
      · exact .inl ⟨by rw [hr], rfl⟩
      · exact .inr ⟨range, by rw [hr], rfl⟩
    · have hset := tokens_setSend he
        ⟨docNo, false, some ⟨docNo, call.hasSpecialParent, false, 0, call.doc⟩, some ⟨1, [], call.replyBuffer⟩⟩
      have hheld : OpenChannel.held ⟨1, [], call.replyBuffer⟩ = 0 := by rw [OpenChannel.held, hempty, add_zero]; rfl
      rw [SendDocMutable.held, SendDocMutable.held, hfree.1, channelHeld, channelHeld, hheld, copies_zero, add_zero, add_zero] at hset
      rw [hset]
  cases hf : call.future with
  | none =>
    have hr : call.replyBuffer = .none := by rw [replyBuffer, hf]
    rw [gives, hf]
    exact hopen (by rw [hr]; rfl) (.inl ⟨hr, rfl⟩)
  | some fut =>
    have hr : call.replyBuffer = .awaiting (some fut.buffer) := by rw [replyBuffer, hf]
    rw [gives, hf]
    exact hopen (by rw [hr]; rfl) (.inr ⟨fut.buffer, hr, rfl⟩)

/-- What one access of a call does. -/
inductive Accessed (call : Call) (s : SessionInner T) : Next → SessionInner T → Prop
  | enter (hp : call.place = .start) :
      Accessed call s (.inl (within s.sendTotal 1 s.sendTable.length .full .limited)) { s with sendTotal := fetchAdd s.sendTotal 1 }
  | undo (hp : call.place = .full) : Accessed call s (.inr (.error .full)) { s with sendTotal := fetchSub s.sendTotal 1 }
  | refuse {e : TrySendError} (hp : call.place = .limited) (he : e ≠ .full) : Accessed call s (.inr (.error e)) s
  | accept (hp : call.place = .limited) : Accessed call s (.inl (.weigh s.sendBytesMax)) s
  | weigh {sendBytesMax : ℕ} (hp : call.place = .weigh sendBytesMax) :
      Accessed call s (.inl (within s.sendBytesTotal call.doc.length sendBytesMax .heavy .search))
        { s with sendBytesTotal := fetchAdd s.sendBytesTotal call.doc.length }
  | unload (hp : call.place = .heavy) :
      Accessed call s (.inl .full) { s with sendBytesTotal := fetchSub s.sendBytesTotal call.doc.length }
  | draw (hp : call.place = .search) : Accessed call s (.inl (.lock s.sendDocNo)) { s with sendDocNo := fetchAdd s.sendDocNo 2 }
  | skip {docNo : ℕ} {e : SendDocMutable} (hp : call.place = .lock docNo) (he : s.sendTable[s.sendIdx docNo]? = some e)
      (hbusy : e.channel.isSome ∨ e.doc.isSome) : Accessed call s (.inl .search) s
  | take {docNo : ℕ} {e : SendDocMutable} (hp : call.place = .lock docNo) (he : s.sendTable[s.sendIdx docNo]? = some e)
      (hfree : ¬ (e.channel.isSome ∨ e.doc.isSome)) : Accessed call s (.inr (.ok docNo)) (s.setSend (s.sendIdx docNo)
        ⟨docNo, false, some ⟨docNo, call.hasSpecialParent, false, 0, call.doc⟩, some ⟨1, [], call.replyBuffer⟩⟩)

lemma accessed (h : (call.step s : Outcome ε _) = .ok (next, s')) : Accessed call s next s' := by
  rw [step] at h
  cases hp : call.place with rw [hp] at h
  | start => cases h; exact .enter hp
  | full => cases h; exact .undo hp
  | limited =>
    dsimp only at h
    split_ifs at h
    · cases h
      exact .refuse hp TrySendError.noConfusion
    · cases h
      exact .refuse hp TrySendError.noConfusion
    · cases h
      exact .accept hp
  | weigh sendBytesMax => cases h; exact .weigh hp
  | heavy => cases h; exact .unload hp
  | search => cases h; exact .draw hp
  | lock docNo =>
    obtain ⟨k, hslot, h⟩ := bind_eq_ok.mp h
    obtain ⟨e, hentry, h⟩ := bind_eq_ok.mp h
    obtain rfl := slot_eq_ok hslot
    split_ifs at h with hbusy
    · cases h
      exact .skip hp (entryAt_eq_ok hentry) hbusy
    · cases h
      exact .take hp (entryAt_eq_ok hentry) hbusy
  | returned => cases h
  | panicked => cases h

lemma turn_step (hP : P.send) (hlock : ∀ docNo, call.place = .lock docNo → s.isSending docNo)
    (h : (call.step s : Outcome ε _) = .ok (next, s')) : Turn P s 0 s' (call.gives next) := by
  have hcount (sendTotal sendDocNo : ℕ) : Turn P s 0 { s with sendTotal := sendTotal, sendDocNo := sendDocNo } 0 := turn_count hP rfl
  cases accessed h with
  | enter hp => exact hcount _ s.sendDocNo
  | undo hp => exact hcount _ s.sendDocNo
  | refuse hp he => exact Turn.refl
  | accept hp => exact Turn.refl
  | weigh hp => exact Turn.view rfl
  | unload hp => exact Turn.view rfl
  | draw hp => exact hcount s.sendTotal _
  | skip hp he hbusy => exact Turn.refl
  | take hp he hfree => exact turn_lock hP (hlock _ hp) he hfree

end Call

section Pass

variable {found : Prop} {before packets : List PacketBuilder}

lemma turn_quietSend {e e' : SendDocMutable} (he : s.sendTable[i]? = some e) (hs : WritesSend s s' i e') (hno : e'.docNo = e.docNo)
    (hdoc : e'.doc.isSome = e.doc.isSome) (hchannel : e'.channel = e.channel) (hflag : e'.needsSendClose → e.needsSendClose) :
    Turn P s V s' V := by
  have hq : SendQuiet e e' := by
    refine ⟨hno, hdoc, by rw [hchannel], fun c c' hc hc' => ?_, hflag⟩
    cases (hchannel.symm.trans hc').symm.trans hc
    exact .inl rfl
  have hset := tokens_setSend he e'
  rw [SendDocMutable.held, SendDocMutable.held, hchannel] at hset
  have htokens : s'.tokens = s.tokens := (tokens_of_view (s := s.setSend i e') hs).trans (add_right_cancel hset)
  refine Turn.single (.send he hq ?_ hs) rfl (by rw [htokens])
  rw [hchannel]
  exact .same

lemma Handled.turn (h : Handled found before s i docNo s' packets) : Turn P s V s' V := by
  cases h with
  | idle hs => exact Turn.view hs
  | seg he hno hdoc hseg hclosed hput hs => exact turn_quietSend he hs rfl (by rw [hdoc]; rfl) rfl (fun h => (by cases h))
  | close he hno hv hput hs => exact turn_quietSend he hs rfl rfl rfl (fun h => (by cases h))
  | @control e he hno hflag hput hs =>
    have hq : RecvQuiet e { e with needsSendControl := false } := ⟨rfl, .inl rfl, fun c hc => ⟨c, hc, id⟩, fun h => (by cases h)⟩
    have htokens : s'.tokens = s.tokens := (tokens_of_view (s := s.setRecv i _) hs).trans (tokens_setRecv_eq he _ rfl rfl)
    exact Turn.single (.recv he hq .same hs) rfl (by rw [htokens])

end Pass

end Pqsnet.Session
