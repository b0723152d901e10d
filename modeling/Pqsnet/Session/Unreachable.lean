import Pqsnet.Session.References

/-! The branches of the receive path that the program takes to be unreachable. -/

namespace Pqsnet.Session

open Checked Outcome SessionInner

variable {T ε : Type} {s : SessionInner T} {i docNo : ℕ}

/-- This does not end in a branch that was taken to be unreachable. -/
abbrev Regular {α : Type} (x : Outcome ε α) : Prop := Ends (· ≠ .unreachable) (fun _ => True) (fun _ => True) x

section Parts

lemma Regular.bind {α β : Type} {x : Outcome ε α} {f : α → Outcome ε β} (hx : Regular x) (hf : ∀ a, x = .ok a → Regular (f a)) :
    Regular (x >>= f) :=
  Ends.bind hx.and_eq fun a ha => hf a ha.2

lemma regular_add (a b : ℕ) : Regular (add a b : Outcome ε ℕ) := ends_add Panic.noConfusion trivial

lemma regular_sub (a b : ℕ) : Regular (sub a b : Outcome ε ℕ) := ends_sub Panic.noConfusion fun _ => trivial

lemma regular_slot (docNo len : ℕ) : Regular (slot docNo len : Outcome ε ℕ) :=
  (ends_slot Panic.noConfusion).imp (fun _ => id) fun _ _ => trivial

lemma regular_entryAt {α : Type} (table : List α) (i : ℕ) : Regular (entryAt table i : Outcome ε α) :=
  (ends_entryAt Panic.noConfusion).imp (fun _ => id) fun _ _ => trivial

lemma regular_channelSlot (s : SessionInner T) (docNo : ℕ) : Regular (s.channelSlot docNo : Outcome ε _) := by
  rw [channelSlot]
  split_ifs <;> exact (regular_slot _ _).bind fun i _ => (regular_entryAt _ i).bind fun _ _ => trivial

lemma regular_marks (segOff segEnd : ℕ) : Regular (RecvDoc.marks segOff segEnd : Outcome ε _) := by
  rw [RecvDoc.marks]
  dsimp only
  split_ifs
  · trivial
  · exact (regular_sub _ _).bind fun _ _ => trivial

lemma regular_checkOverlaps (ms : List (ℕ × BitVec 64)) (setSegs : List (BitVec 64)) :
    Regular (RecvDoc.checkOverlaps ms setSegs : Outcome ε _) := by
  induction ms generalizing setSegs with
  | nil => trivial
  | cons x ms ih =>
    have hone : Regular (RecvDoc.checkOverlap setSegs x.1 x.2 : Outcome ε _) := by
      rw [RecvDoc.checkOverlap]
      split
      · trivial
      · exact Panic.noConfusion
    exact hone.bind fun r _ => (ih r.2).bind fun _ _ => trivial

lemma regular_write (mem : DocMem) (segOff : ℕ) (seg : Bytes) : Regular (mem.write segOff seg : Outcome ε _) := by
  cases mem with
  | simple m =>
    refine (regular_add _ _).bind fun stop _ => ?_
    split_ifs
    · trivial
    · exact Panic.noConfusion
  | replyBuf range m =>
    rw [DocMem.write]
    split_ifs
    · trivial
    · exact Panic.noConfusion

lemma regular_recvDoc (doc : RecvDoc) (segOff : ℕ) (seg : Bytes) : Regular (doc.recvDoc segOff seg) := by
  rw [RecvDoc.recvDoc]
  dsimp only
  split_ifs
  · trivial
  · refine (regular_add _ _).bind fun segStop _ => (regular_sub _ _).bind fun segEnd _ => ?_
    split_ifs
    · trivial
    · exact (regular_marks _ _).bind fun ms _ => (regular_checkOverlaps ms _).bind fun r _ => (regular_add _ _).bind fun _ _ =>
        (regular_write _ _ _).bind fun _ _ => trivial

lemma regular_attempt {ε' α : Type} {x : Outcome ε' α} (hx : Regular x) : Regular (attempt x : Outcome ε _) :=
  hx.attempt.imp (fun _ => id) fun _ _ => trivial

lemma regular_alloc (docLen : ℕ) (buffer : Option BufRange) : Regular (RecvDoc.alloc docLen buffer : Outcome ε _) := by
  cases buffer with
  | some range => trivial
  | none =>
    rw [RecvDoc.alloc]
    split_ifs
    · trivial
    · exact Panic.noConfusion

end Parts

section Receiving

variable {e : RecvDocMutable} {f : SegFrame}

lemma regular_finSection {doc : RecvDoc} (he : s.recvTable[i]? = some e) (hdoc : e.doc = .active doc) :
    Regular (s.finSection i docNo : Outcome ε _) := by
  rw [finSection]
  refine (regular_entryAt _ i).bind fun x hx => ?_
  cases he.symm.trans (entryAt_eq_ok hx)
  rw [hdoc]
  dsimp only
  split
  · refine Regular.bind ?_ fun _ _ => trivial
    rw [completeDoc]
    dsimp only
    split
    · exact (regular_add _ _).bind fun _ _ => trivial
    · trivial
  · trivial

lemma regular_intoSection {e₀ : RecvDocMutable} {doc : RecvDoc} (he : s.recvTable[i]? = some e₀) :
    Regular (s.intoSection i e doc f : Outcome ε _) := by
  rw [intoSection]
  refine (regular_attempt (regular_recvDoc _ _ _)).bind fun r _ => ?_
  split
  · trivial
  · exact regular_finSection (getElem?_set_of_getElem? he _) rfl
  · trivial

lemma regular_updateSection {e₀ : RecvDocMutable} {c : Option OpenChannel} (he : s.recvTable[i]? = some e₀) :
    Regular (s.updateSection i e f c : Outcome ε _) := by
  rw [updateSection]
  split
  · trivial
  · exact (regular_intoSection he).bind fun _ _ => trivial
  · trivial

lemma regular_waitSection {c : Option OpenChannel} : Regular (s.waitSection f c : Outcome ε _) := by
  rw [waitSection]
  exact (regular_slot _ _).bind fun i _ => (regular_entryAt _ i).bind fun e he => regular_updateSection (entryAt_eq_ok he)

lemma regular_fillSection {docLen : ℕ} {buffer : Option BufRange} : Regular (s.fillSection f docLen buffer : Outcome ε _) := by
  rw [fillSection]
  refine (regular_slot _ _).bind fun i _ => (regular_entryAt _ i).bind fun e he => ?_
  split_ifs
  · exact Panic.noConfusion
  · exact (regular_alloc _ _).bind fun mem _ => regular_intoSection (entryAt_eq_ok he)

lemma regular_createSection : Regular (s.createSection i e f : Outcome ε _) := by
  rw [createSection]
  split
  · trivial
  · dsimp only
    split
    · trivial
    · split
      · trivial
      · exact regular_fillSection.bind fun _ _ => trivial

lemma regular_segSection : Regular (s.segSection f : Outcome ε _) := by
  rw [segSection]
  split
  · trivial
  · refine (regular_slot _ _).bind fun i _ => (regular_entryAt _ i).bind fun e he => ?_
    split
    · exact regular_updateSection (entryAt_eq_ok he)
    · split
      · exact regular_createSection
      · trivial

lemma regular_lendBuffer : Regular (s.lendBuffer f : Outcome ε _) := by
  rw [lendBuffer]
  split
  · refine Regular.bind ?_ fun _ _ => trivial
    rw [updateChannel]
    refine (regular_channelSlot _ _).bind fun r _ => ?_
    split
    · split_ifs
      · trivial
      · trivial
    · trivial
  · trivial

lemma regular_dropRound (docLen : ℕ) : Regular (s.dropRound docNo docLen : Outcome ε _) := by
  rw [dropRound]
  refine (regular_slot _ _).bind fun i _ => (regular_entryAt _ i).bind fun e _ => ?_
  split_ifs
  · exact Panic.noConfusion
  · split <;> trivial
  · trivial

/-- A document with a reply buffer that is completed goes to a channel that is still awaiting it, and never waits for its
parent. -/
lemma regular_handOverSection {parentNo : ℕ} {isClosed : Bool} {doc : RecvDoc}
    (hlink : Linked s (s.tokens + Task.tokens (.handOver docNo parentNo isClosed doc))) :
    Regular (s.handOverSection docNo parentNo isClosed doc : Outcome ε _) := by
  have hbuffer {range : BufRange} {mem : List (Option UInt8)} (hmem : doc.mem = .replyBuf range mem) :=
    hlink.linked parentNo range (by simp [Task.tokens, hmem, DocMem.tokens])
  have hnotOpen (no : ℕ) : Regular (handOverSection.notOpen docNo parentNo isClosed doc s no : Outcome ε _) := by
    rw [handOverSection.notOpen]
    split_ifs with hno hside
    · trivial
    · trivial
    · refine Regular.bind ?_ fun r _ => ?_
      · rw [adoptLater]
        refine (regular_slot _ _).bind fun i _ => (regular_entryAt _ i).bind fun e _ => ?_
        split_ifs
        · split
          · trivial
          · rename_i hmem
            exact absurd (hbuffer hmem).1 hside
        · trivial
      · split <;> trivial
  rw [handOverSection]
  refine (regular_channelSlot _ _).bind fun r hr => ?_
  obtain ⟨no, channel⟩ := r
  cases channel with
  | none => exact hnotOpen no
  | some channel =>
    dsimp only
    split_ifs with hno
    · refine Regular.bind ?_ fun _ _ => trivial
      rw [OpenChannel.post]
      split
      · trivial
      · rename_i range mem hmem
        obtain ⟨hside, e, he, heno, -, hreply⟩ := hbuffer hmem
        have hc := channelOf_of_channelSlot hr
        rw [if_pos hno, channelOf_send hside he heno] at hc
        rw [hreply channel hc]
        trivial
    · exact hnotOpen no

lemma asserts_dropRound {docLen : ℕ} (hfin : ∀ {e : RecvDocMutable}, s.recvTable[s.recvIdx docNo]? = some e → e.docNo = docNo → e.doc.slotIsFin) :
    Ends (· ≠ .assertion) (fun _ => True) (fun _ => True) (Task.run s (.dropRound docNo docLen) : Outcome ε _) := by
  refine Ends.bind (Q := fun _ => True) ?_ fun _ _ => trivial
  rw [dropRound]
  refine (ends_slot Panic.noConfusion).bind fun i hi => (ends_entryAt Panic.noConfusion).bind fun e he => ?_
  subst hi
  split_ifs with hno hassert
  · exact absurd (hfin he hno) (by simpa using hassert.2)
  · split <;> trivial
  · trivial

lemma slotIsFin_cases {d : RecvDocState} (h : d.slotIsFin) : d = .finishing ∨ d = .finAck := by
  cases d with
  | finishing => exact .inl rfl
  | finAck => exact .inr rfl
  | activeReserved | active | finParentClose => cases h

end Receiving

lemma Task.regular {task : Task} (hlink : Linked s (s.tokens + task.tokens)) : Regular (task.run s : Outcome ε _) := by
  cases task with
  | seg f => exact regular_segSection
  | wait f c => exact regular_waitSection
  | lookUp f docLen => exact regular_lendBuffer.bind fun _ _ => trivial
  | fill f docLen buffer => exact regular_fillSection
  | handOver docNo parentNo isClosed doc => exact regular_handOverSection hlink
  | dropRound docNo docLen => exact (regular_dropRound docLen).bind fun _ _ => trivial
  | abandon => trivial

namespace Machine

variable {m : Machine T} {tasks : List Task} {task : Task}

lemma task_le (htasks : tasks ∈ m.threads) (htask : task ∈ tasks) : m.session.tokens + task.tokens ≤ m.tokens := by
  have htask : task.tokens ≤ tasksTokens tasks :=
    List.single_le_sum (fun x _ => Multiset.zero_le x) _ (List.mem_map_of_mem htask)
  have hthread : tasksTokens tasks ≤ threadTokens m.threads :=
    List.single_le_sum (fun x _ => Multiset.zero_le x) _ (List.mem_map_of_mem htasks)
  rw [tokens, hands, add_assoc (threadTokens _)]
  exact add_le_add le_rfl ((htask.trans hthread).trans (Multiset.le_add_right _ _))

/-- No task comes to a branch that the program takes to be unreachable, at whatever point a thread runs it. A slot that was reserved
is found reserved again, a document with a reply buffer only completes onto a channel that is awaiting it and does not wait for
its parent, and what is dropped has left its slot finished. -/
theorem unreachable_branches (hm : m.Reachable fun _ _ => True) (htasks : tasks ∈ m.threads) (htask : task ∈ tasks) :
    (task.run m.session : Outcome Empty _) ≠ .panic .unreachable ∧
    (∀ f docLen buffer, task = .fill f docLen buffer →
      ∃ e, m.session.recvTable[m.session.recvIdx f.docNo]? = some e ∧ e.docNo = f.docNo ∧ e.doc = .activeReserved) ∧
    (∀ docNo parentNo isClosed doc range mem, task = .handOver docNo parentNo isClosed doc → doc.mem = .replyBuf range mem →
      m.session.isSending parentNo ∧ ∀ c, m.session.channelOf parentNo = some c → ∃ b, c.replyBuffer = .awaiting b) ∧
    (∀ docNo docLen, task = .dropRound docNo docLen → (task.run m.session : Outcome Empty _) ≠ .panic .assertion ∧
      ∀ e : RecvDocMutable, m.session.recvTable[m.session.recvIdx docNo]? = some e → e.docNo = docNo →
        e.doc = .finishing ∨ e.doc = .finAck) := by
  have hle := task_le htasks htask
  obtain ⟨hcoh, -, -, -⟩ := hm.sound
  have hnum := hcoh.numbered.mono hle
  have hlink := hcoh.linked.mono hle
  refine ⟨fun h => (Task.regular hlink).panic h rfl, ?_, ?_, ?_⟩
  · rintro f docLen buffer rfl
    exact hnum.claimed f.docNo (by simp [Task.tokens])
  · rintro docNo parentNo isClosed doc range mem rfl hmem
    obtain ⟨hside, e, he, hno, -, hreply⟩ := hlink.linked parentNo range (by simp [Task.tokens, hmem, DocMem.tokens])
    refine ⟨hside, fun c hc => ⟨none, hreply c ?_⟩⟩
    rwa [channelOf_send hside he hno] at hc
  · rintro docNo docLen rfl
    have hcopy : .copy docNo ∈ m.session.tokens + Task.tokens (.dropRound docNo docLen) := by simp [Task.tokens]
    have hfin {e : RecvDocMutable} (he : m.session.recvTable[m.session.recvIdx docNo]? = some e) (hno : e.docNo = docNo) :
        e.doc.slotIsFin := (hnum.unique docNo e he hno).2 hcopy
    refine ⟨fun h => ?_, fun e he hno => ?_⟩
    · exact (asserts_dropRound hfin).panic h rfl
    · exact slotIsFin_cases (hfin he hno)

/-- The first of two segments of a document that is a reply. -/
def firstOfTwo : SegFrame := ⟨2, some 2, some 1, 0, [7], true, true, false, false⟩

/-- A document was sent with a buffer for the reply. The first segment of the reply has taken the buffer, and the slot is
reserved for it. -/
def lending : Machine ℕ where
  session := { World.oneChannel.session with
    recvBytesTotal := 2
    recvTable := World.oneChannel.session.recvTable.set 1 ⟨2, .activeReserved, some ⟨0, [], .none⟩, [], none, false⟩
    sendBytesTotal := 1
    sendTotal := 1
    sendDocNo := 3
    sendTable := World.oneChannel.session.sendTable.set 0
      ⟨1, false, some ⟨1, false, false, 0, [1]⟩, some ⟨1, [], .awaiting none⟩⟩ }
  threads := [[.fill firstOfTwo 2 (some ⟨0, 2⟩)]]
  calls := [⟨false, [1], some ⟨⟨0, false, false⟩, ⟨0, 2⟩, .sending [1]⟩, .returned⟩]
  handles := [⟨0, false, false⟩]
  futures := [⟨⟨0, false, false⟩, ⟨0, 2⟩, .sent ⟨1, false, false⟩⟩]
  drawn := [1]
  given := [1]

lemma lending_run (C : Machine ℕ → ℕ → Prop) : Run C oneHandle lending := by
  have hfuture : Run C oneHandle _ := .single (.sendWithReplyBuffer [1] ⟨0, 2⟩ (List.mem_singleton_self _))
  have hroom : HasRoom { oneHandle with futures := [⟨⟨0, false, false⟩, ⟨0, 2⟩, .sending [1]⟩] } := by
    rw [HasRoom]
    decide
  have hstart := hfuture.tail (.pollSending (List.mem_singleton_self _) rfl hroom)
  have hsearch := ((hstart.tail (.send (k := 0) rfl rfl)).tail (.send (k := 0) rfl rfl)).tail (.send (k := 0) rfl rfl)
  have hsent := (hsearch.tail (.send (k := 0) rfl rfl)).tail (.send (k := 0) rfl rfl)
  have htaken := ((hsent.tail (.recvSeg firstOfTwo)).tail (.run (k := 0) rfl rfl)).tail (.run (k := 0) rfl rfl)
  exact htaken

theorem unreachable_branches_lending : ∃ e, lending.session.recvTable[lending.session.recvIdx firstOfTwo.docNo]? = some e ∧
    e.docNo = 2 ∧ e.doc = .activeReserved :=
  (unreachable_branches ⟨oneHandle, oneHandle_initial, lending_run _⟩ (List.mem_singleton_self _) (List.mem_singleton_self _)).2.1
    firstOfTwo 2 _ rfl

end Machine

end Pqsnet.Session
