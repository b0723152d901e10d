import Pqsnet.Session.Unreachable

/-! A reply buffer is in use only while its future waits, as long as no future is dropped whose buffer is in use. -/

namespace Pqsnet.Session

open Checked Outcome SessionInner

variable {T : Type} {docNo : ℕ} {range : BufRange}

/-- A document that is received into the reply buffer of another one. -/
def RecvDocState.Uses (docNo : ℕ) (range : BufRange) : RecvDocState → Prop
  | .active doc => doc.lender = docNo ∧ ∃ mem, doc.mem = .replyBuf range mem
  | _ => False

/-- A thread that has a reply buffer in hand. -/
def Task.Uses (docNo : ℕ) (range : BufRange) : Task → Prop
  | .fill f _ buffer => f.parentNo.getD 0 = docNo ∧ buffer = some range
  | .handOver _ parentNo _ doc => parentNo = docNo ∧ ∃ mem, doc.mem = .replyBuf range mem
  | _ => False

section Tokens

lemma DocMem.buffer_mem {mem : DocMem} {parentNo : ℕ} :
    .buffer docNo range ∈ mem.tokens parentNo ↔ parentNo = docNo ∧ ∃ bytes, mem = .replyBuf range bytes := by
  cases mem with
  | simple m => simp [DocMem.tokens]
  | replyBuf r m =>
    rw [DocMem.tokens, Multiset.mem_singleton, Token.buffer.injEq]
    constructor
    · rintro ⟨rfl, rfl⟩
      exact ⟨rfl, m, rfl⟩
    · rintro ⟨rfl, bytes, h⟩
      cases h
      exact ⟨rfl, rfl⟩

lemma RecvDocState.buffer_mem {d : RecvDocState} : .buffer docNo range ∈ d.tokens ↔ d.Uses docNo range := by
  cases d with
  | active doc => exact DocMem.buffer_mem
  | activeReserved | finishing | finAck | finParentClose => exact iff_of_false (Multiset.notMem_zero _) id

lemma buffer_not_mem_copies (held : Multiset Undelivered) : .buffer docNo range ∉ copies held := fun h => by
  obtain ⟨u, -, hu⟩ := Multiset.mem_map.mp h
  cases hu

lemma Task.buffer_mem {task : Task} : .buffer docNo range ∈ task.tokens ↔ task.Uses docNo range := by
  cases task with
  | fill f docLen buffer =>
    cases buffer with
    | none => simp [Task.tokens, Task.Uses]
    | some r => simp [Task.tokens, Task.Uses, bufferTokens, eq_comm]
  | handOver no parentNo isClosed doc =>
    rw [Task.tokens, Multiset.mem_add, DocMem.buffer_mem]
    simp [Task.Uses]
  | wait f c => simp [Task.tokens, Task.Uses, buffer_not_mem_copies]
  | seg | lookUp | dropRound | abandon => simp [Task.tokens, Task.Uses]

lemma Task.future_not_mem (task : Task) : .future docNo range ∉ task.tokens := by
  cases task with
  | fill f docLen buffer => simp [Task.tokens, future_not_mem_bufferTokens]
  | handOver no parentNo isClosed doc => exact future_not_mem_handOver docNo range
  | wait f c => simp [Task.tokens, future_not_mem_copies]
  | seg | lookUp | dropRound | abandon => simp [Task.tokens]

lemma buffer_mem_tokens {s : SessionInner T} : .buffer docNo range ∈ s.tokens ↔ ∃ e ∈ s.recvTable, e.doc.Uses docNo range := by
  rw [SessionInner.tokens, Multiset.mem_add, or_iff_right (buffer_not_mem_copies _), SessionInner.lent, mem_sum_map]
  exact exists_congr fun e => and_congr_right fun _ => RecvDocState.buffer_mem

lemma future_not_mem_tokens {s : SessionInner T} : .future docNo range ∉ s.tokens := fun h => by
  obtain h | h := Multiset.mem_add.mp h
  · exact future_not_mem_copies _ _ _ h
  · obtain ⟨e, -, h⟩ := mem_sum_map.mp h
    cases hdoc : e.doc with
    | active doc =>
      rw [hdoc] at h
      exact future_not_mem_memTokens _ _ _ h
    | activeReserved | finishing | finAck | finParentClose =>
      rw [hdoc] at h
      exact Multiset.notMem_zero _ h

end Tokens

namespace Machine

variable {m m' : Machine T}

/-- A document or a thread has the reply buffer. -/
def Uses (m : Machine T) (docNo : ℕ) (range : BufRange) : Prop :=
  (∃ e ∈ m.session.recvTable, e.doc.Uses docNo range) ∨ ∃ tasks ∈ m.threads, ∃ task ∈ tasks, task.Uses docNo range

/-- The future waits for a reply to the document, in that buffer. -/
def Waits (m : Machine T) (docNo : ℕ) (range : BufRange) : Prop :=
  ∃ fut ∈ m.futures, ∃ reply, fut.state = .sent reply ∧ reply.docNo = docNo ∧ fut.buffer = range

lemma buffer_mem : .buffer docNo range ∈ m.tokens ↔ m.Uses docNo range := by
  have hthreads : .buffer docNo range ∈ threadTokens m.threads ↔ ∃ tasks ∈ m.threads, ∃ task ∈ tasks, task.Uses docNo range := by
    rw [threadTokens, mem_sum_map]
    refine exists_congr fun tasks => and_congr_right fun _ => ?_
    rw [tasksTokens, mem_sum_map]
    exact exists_congr fun task => and_congr_right fun _ => Task.buffer_mem
  have hhandles : .buffer docNo range ∉ handleTokens m.handles := by simp [handleTokens]
  have hfutures : .buffer docNo range ∉ futureTokens m.futures := fun h => by
    obtain ⟨fut, -, h⟩ := mem_sum_map.mp h
    rw [SendReplyFuture.tokens] at h
    split at h <;> simp at h
  rw [tokens, hands, Multiset.mem_add, Multiset.mem_add, Multiset.mem_add, or_iff_left hfutures, or_iff_left hhandles, hthreads,
    buffer_mem_tokens, Uses]

lemma future_mem : .future docNo range ∈ m.tokens ↔ m.Waits docNo range := by
  have hthreads : .future docNo range ∉ threadTokens m.threads := fun h => by
    obtain ⟨tasks, -, h⟩ := mem_sum_map.mp h
    obtain ⟨task, -, h⟩ := mem_sum_map.mp h
    exact task.future_not_mem h
  have hhandles : .future docNo range ∉ handleTokens m.handles := by simp [handleTokens]
  rw [tokens, hands, Multiset.mem_add, Multiset.mem_add, Multiset.mem_add, or_iff_right future_not_mem_tokens, or_iff_right hthreads,
    or_iff_right hhandles, futureTokens, mem_sum_map]
  refine exists_congr fun fut => and_congr_right fun _ => ?_
  rw [SendReplyFuture.tokens]
  cases fut.state with
  | sending doc => simp
  | sent reply => simp [eq_comm]

lemma Initial.lent (hm : m.Initial) : Lent m.session m.tokens := by
  refine ⟨fun docNo range h => ?_, fun i e c range he hc hr => ?_, fun docNo range h => ?_⟩
  · exact absurd h (hm.not_mem_tokens (by simp))
  · have hnone := (hm.send i e he c hc).2.1
    rw [hr] at hnone
    cases hnone
  · exact absurd h (hm.not_mem_tokens (by simp))

/-- A future may be dropped if nobody has its buffer. -/
def Unused (m : Machine T) (docNo : ℕ) : Prop := ∀ range, ¬ m.Uses docNo range

lemma Run.lent (h : Run Unused m m') (hm : m.Sound) (hlent : Lent m.session m.tokens) : Lent m'.session m'.tokens := by
  induction h with
  | refl => exact hlent
  | tail hrun hstep ih =>
    have hsound := Run.sound hrun hm
    obtain ⟨P, hdrop, hturn⟩ := (hstep.moved hsound.coherent).turn hsound
    refine Changes.lent hturn hsound.coherent (fun docNo hd => ?_) ih
    obtain ⟨hlend, hunused⟩ := hdrop docNo hd
    exact ⟨hlend, fun range hb => hunused range (buffer_mem.mp hb)⟩

lemma slot_unique {i j : ℕ} {e e' : RecvDocMutable} {range' : BufRange} (hm : m.Sound) (he : m.session.recvTable[i]? = some e)
    (he' : m.session.recvTable[j]? = some e') (hu : e.doc.Uses docNo range) (hu' : e'.doc.Uses docNo range') : i = j := by
  by_contra hij
  have hone {d : RecvDocState} {r : BufRange} (hu : d.Uses docNo r) : 1 ≤ Token.countOf (Token.isBufferOf docNo) d.tokens :=
    Token.countOf_pos.mpr ⟨_, RecvDocState.buffer_mem.mpr hu, decide_eq_true rfl⟩
  have hsum : Token.countOf (Token.isBufferOf docNo) m.session.lent =
      (m.session.recvTable.map fun e => Token.countOf (Token.isBufferOf docNo) e.doc.tokens).sum := by
    rw [SessionInner.lent]
    induction m.session.recvTable with
    | nil => rfl
    | cons x l ih => rw [List.map_cons, List.sum_cons, Token.countOf_add, ih, List.map_cons, List.sum_cons]
  have htwo := add_le_sum_map (fun e : RecvDocMutable => Token.countOf (Token.isBufferOf docNo) e.doc.tokens) hij he he'
  have hle : m.session.lent ≤ m.tokens := (Multiset.le_add_left _ _).trans (Multiset.le_add_right _ _)
  have hsingle := (Token.countOf_mono _ hle).trans (hm.coherent.linked.single docNo)
  have := hone hu
  have := hone hu'
  omega

/-- As long as no future is dropped whose buffer is in use: every document that is received into a reply buffer, and every thread
that is about to, has it from a future that still waits, and no two documents have the buffer of one future. -/
theorem buffers_borrowed (hm : m.Reachable Unused) :
    (∀ (i : ℕ) (e : RecvDocMutable) doc range mem, m.session.recvTable[i]? = some e → e.doc = .active doc →
      doc.mem = .replyBuf range mem → m.Waits doc.lender range) ∧
    (∀ tasks ∈ m.threads, ∀ f docLen range, .fill f docLen (some range) ∈ tasks → m.Waits (f.parentNo.getD 0) range) ∧
    ∀ (i j : ℕ) (e e' : RecvDocMutable) doc doc' range range' mem mem', m.session.recvTable[i]? = some e →
      m.session.recvTable[j]? = some e' → e.doc = .active doc → e'.doc = .active doc' → doc.mem = .replyBuf range mem →
      doc'.mem = .replyBuf range' mem' → doc.lender = doc'.lender → i = j := by
  have hsound := hm.sound
  obtain ⟨m₀, hm₀, hrun⟩ := hm
  have hlent := Run.lent hrun hm₀.sound hm₀.lent
  have hlive {docNo : ℕ} {range : BufRange} (hu : m.Uses docNo range) : m.Waits docNo range :=
    future_mem.mp (hlent.live docNo range (buffer_mem.mpr hu)).1
  have huses {e : RecvDocMutable} {doc : RecvDoc} {range : BufRange} {mem : List (Option UInt8)} (hdoc : e.doc = .active doc)
      (hmem : doc.mem = .replyBuf range mem) : e.doc.Uses doc.lender range := by
    rw [hdoc]
    exact ⟨rfl, mem, hmem⟩
  refine ⟨fun i e doc range mem he hdoc hmem => ?_, fun tasks htasks f docLen range htask => ?_, ?_⟩
  · exact hlive (.inl ⟨e, List.mem_of_getElem? he, huses hdoc hmem⟩)
  · exact hlive (.inr ⟨tasks, htasks, _, htask, rfl, rfl⟩)
  · intro i j e e' doc doc' range range' mem mem' he he' hdoc hdoc' hmem hmem' hlender
    exact slot_unique hsound he he' (huses hdoc hmem) (hlender ▸ huses hdoc' hmem')

/-- The first segment of a reply is in the buffer. -/
theorem buffers_borrowed_lending : ∃ m : Machine ℕ, m.Reachable Unused ∧
    (∃ e doc, m.session.recvTable[1]? = some e ∧ e.doc = .active doc ∧ doc.mem = .replyBuf ⟨0, 2⟩ [some 7, none]) ∧ m.Waits 1 ⟨0, 2⟩ := by
  have hrun : Run Unused oneHandle _ := (lending_run Unused).tail (.run (k := 0) rfl rfl)
  have hm : Reachable Unused _ := ⟨oneHandle, oneHandle_initial, hrun⟩
  exact ⟨_, hm, ⟨_, _, rfl, rfl, rfl⟩, (buffers_borrowed hm).1 1 _ _ _ _ rfl rfl rfl⟩

/-- The second of two segments of the reply. -/
def secondOfTwo : SegFrame := ⟨2, none, none, 1, [8], false, false, false, false⟩

/-- The first segment of the reply is in the buffer, and the future was dropped. -/
def orphaned : Machine ℕ := { lending with
  session := { lending.session with
    recvTable := lending.session.recvTable.set 1 ⟨2, .active ⟨true, some 1, .replyBuf ⟨0, 2⟩ [some 7, none], 1, [BitVec.ofNat 64 (2 ^ 63)], 2⟩,
      some ⟨0, [], .none⟩, [], none, false⟩
    sendTable := lending.session.sendTable.set 0 ⟨1, true, some ⟨1, false, false, 0, [1]⟩, none⟩
    scheduled := [(variantControlClose, 1)] }
  threads := [[], []]
  futures := [] }

lemma orphaned_run : Run (fun _ _ => True) oneHandle orphaned := by
  have hfill := (lending_run fun _ _ => True).tail (.run (k := 0) rfl rfl)
  have hdrop := hfill.tail (.dropSent (List.mem_singleton_self _) rfl trivial rfl)
  exact hdrop

/-- The second segment of the reply is then written into a buffer that nobody lends any more, and the reply is complete. -/
theorem dropped_buffer_written : (orphaned.Reachable fun _ _ => True) ∧ orphaned.futures = [] ∧
    ∃ m : Machine ℕ, Run (fun _ _ => True) orphaned m ∧ m.futures = [] ∧ m.threads = [[], [],
      [.handOver 2 1 false ⟨true, some 1, .replyBuf ⟨0, 2⟩ [some 8, none], 2, [BitVec.ofNat 64 (3 * 2 ^ 62)], 2⟩]] := by
  have hseg : Run (fun _ _ => True) orphaned _ := (Relation.ReflTransGen.single (.recvSeg secondOfTwo)).tail (.run (k := 2) rfl rfl)
  exact ⟨⟨oneHandle, oneHandle_initial, orphaned_run⟩, rfl, _, hseg, rfl, rfl⟩

end Machine

end Pqsnet.Session
