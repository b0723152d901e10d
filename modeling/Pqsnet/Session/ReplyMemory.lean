import Pqsnet.Session.ByteAccounting

/-! A document that is received into a reply buffer, next to the same document in memory of its own. -/

namespace Pqsnet.Session

open Checked Outcome RecvDoc

variable {f : SegFrame} {n off : ℕ} {range : BufRange} {doc doc' heap reply : RecvDoc} {seg : Bytes} {calls pre : List (ℕ × Bytes)}
  {complete : Bool}

def heapDocOf (f : SegFrame) (n : ℕ) : RecvDoc := SessionInner.newDoc f n (.simple (List.replicate n none))

def replyDocOf (f : SegFrame) (n : ℕ) (range : BufRange) : RecvDoc := SessionInner.newDoc f n (.replyBuf range (List.replicate range.len none))

/-- Both documents answer the last segment the same way. If it completes them, they have the same bytes, and the parent is told
how many. -/
def Agrees (f : SegFrame) (n : ℕ) (range : BufRange) (calls : List (ℕ × Bytes)) : Prop :=
  ∃ complete heap reply, recvDocs (heapDocOf f n) calls = .ok (complete, heap) ∧
    recvDocs (replyDocOf f n range) calls = .ok (complete, reply) ∧
    (complete → reply.mem.bytes.take n = heap.mem.bytes ∧ ∀ channel docNo parentNo isClosed b, channel.replyBuffer = .awaiting b →
      ∃ u, (OpenChannel.post channel docNo parentNo isClosed reply : Outcome Empty _) = .ok { channel with replyBuffer := .recv n u })

/-- What is marked as received is there, whatever it is. -/
def Present (doc : RecvDoc) : Prop := ∃ m, doc.mem = .simple m ∧ ∀ k, isMarked doc.setSegs k → ∃ b, m[k]? = some (some b)

lemma Present.recvDoc (hdoc : Present doc) (hne : seg ≠ []) (h : doc.recvDoc off seg = .ok (complete, doc')) : Present doc' := by
  obtain ⟨m, hmem, hmarked⟩ := hdoc
  obtain ⟨m', hmem', -, hmarked'⟩ := recvDoc_marked hne hmem h
  refine ⟨m', hmem', fun k hk => ?_⟩
  rcases hmarked' k hk with ⟨hlow, hhigh, -, hbyte⟩ | ⟨hold, hbyte⟩
  · rw [hbyte, List.getElem?_eq_getElem (by omega)]
    exact ⟨_, rfl⟩
  · rw [hbyte]
    exact hmarked k hold

lemma heapDocOf_untouched (f : SegFrame) (n : ℕ) : Untouched n (heapDocOf f n) := ⟨rfl, rfl⟩

lemma replyDocOf_untouched (f : SegFrame) (n : ℕ) (range : BufRange) : Untouched n (replyDocOf f n range) := ⟨rfl, rfl⟩

lemma heapDocOf_present (f : SegFrame) (n : ℕ) : Present (heapDocOf f n) :=
  ⟨_, rfl, fun k hk => absurd hk (not_isMarked_replicate _ k)⟩

lemma replyDocOf_lacks (f : SegFrame) (n : ℕ) (range : BufRange) : (replyDocOf f n range).Lacks := by
  refine ⟨range, _, rfl, fun k hk => ?_⟩
  rw [List.getElem?_replicate, if_pos (by omega)]

lemma heapDocOf_run (h : recvDocs (heapDocOf f n) calls = .ok (complete, heap)) : Present heap :=
  recvDocs_invariant (fun _ _ _ _ _ hne hdoc => hdoc.recvDoc hne) (heapDocOf_present f n) h

lemma replyDocOf_run (h : recvDocs (replyDocOf f n range) calls = .ok (complete, reply)) : reply.Lacks :=
  recvDocs_invariant (fun _ _ _ _ _ hne hdoc hr => (hdoc.recvDoc hne hr).1) (replyDocOf_lacks f n range) h

section Runs

variable (hn : n < 2 ^ 64) (hcalls : ∀ call ∈ calls, call.1 + call.2.length ≤ n)
include hn hcalls

lemma exists_heap (f : SegFrame) : ∃ complete heap, recvDocs (heapDocOf f n) calls = .ok (complete, heap) ∧ Tracks n (keptBytes calls) heap ∧
    ∀ pre call, calls = pre ++ [call] → complete = completes n pre call := by
  have hlen : (heapDocOf f n).mem.len = n := List.length_replicate
  have hrun := (heapDocOf_untouched f n).recvDocs hn hlen.ge fun call hcall => ⟨hcalls call hcall, fun _ hb => absurd hb id⟩
  rwa [hlen] at hrun

lemma exists_reply (f : SegFrame) (hrange : n ≤ range.len) (hshort : ∀ call ∈ calls, call.2 ≠ [] → call.2.length < range.len) :
    ∃ complete reply, recvDocs (replyDocOf f n range) calls = .ok (complete, reply) ∧ Tracks n (keptBytes calls) reply ∧
      ∀ pre call, calls = pre ++ [call] → complete = completes range.len pre call :=
  (replyDocOf_untouched f n range).recvDocs hn hrange fun call hcall => ⟨hcalls call hcall, fun hne _ => hshort call hcall hne⟩

lemma agrees_of_incomplete (hrange : n ≤ range.len) (hpos : range.len ≠ 0)
    (hshort : ∀ call ∈ calls, call.2 ≠ [] → call.2.length < range.len)
    (hnot : ∀ heap, recvDocs (heapDocOf f n) calls ≠ .ok (true, heap)) : Agrees f n range calls := by
  obtain ⟨complete, heap, hheap, htracks, hlast⟩ := exists_heap hn hcalls f
  obtain ⟨complete', reply, hreply, -, hlast'⟩ := exists_reply hn hcalls f hrange hshort
  have hfalse : complete = false := by
    cases complete with
    | false => rfl
    | true => exact absurd hheap (hnot heap)
  have hfalse' : complete' = false := by
    rcases List.eq_nil_or_concat' calls with rfl | ⟨pre, call, rfl⟩
    · cases hreply
      rfl
    · rw [hlast' pre call rfl]
      have hheapLast := (hlast pre call rfl).symm.trans hfalse
      have hle : (keptBytes (pre ++ [call])).card ≤ n := by simpa using Finset.card_le_card htracks.le
      rw [completes] at hheapLast ⊢
      split_ifs at hheapLast ⊢
      · exact decide_eq_false hpos
      · rw [decide_eq_false_iff_not] at hheapLast ⊢
        omega
  subst hfalse hfalse'
  exact ⟨false, heap, reply, hheap, hreply, fun h => (by cases h)⟩

lemma agrees_of_empty (hrange : n ≤ range.len) (hzero : range.len = 0) : Agrees f n range calls := by
  obtain ⟨complete, heap, hheap, htracks, hlast⟩ := exists_heap hn hcalls f
  obtain ⟨complete', reply, hreply, htracks', hlast'⟩ := exists_reply hn hcalls f hrange fun call hcall hne => by
    have := hcalls call hcall
    exact absurd (List.length_eq_zero_iff.mp (by omega)) hne
  obtain rfl : n = 0 := by omega
  have hsame : complete' = complete := by
    rcases List.eq_nil_or_concat' calls with rfl | ⟨pre, call, rfl⟩
    · cases hheap
      cases hreply
      rfl
    · rw [hlast pre call rfl, hlast' pre call rfl, hzero]
  subst hsame
  refine ⟨complete', heap, reply, hheap, hreply, fun _ => ⟨?_, fun channel docNo parentNo isClosed b hb => ?_⟩⟩
  · obtain ⟨m, hmem, -⟩ := heapDocOf_run hheap
    have hlen := (recvDocs_ok hheap).1
    rw [hmem] at hlen ⊢
    exact (List.length_eq_zero_iff.mp hlen).symm
  · have htotal : reply.totalRecv = 0 := by
      rw [htracks'.total, Finset.card_eq_zero, ← Finset.subset_empty]
      exact htracks'.le
    obtain ⟨range, m, hmem, -⟩ := replyDocOf_run hreply
    rw [OpenChannel.post, hmem, hb, htotal]
    exact ⟨_, rfl⟩

omit hcalls in
/-- A reply buffer that is complete is as long as the document, and its last byte is missing. -/
lemma not_complete (hrange : n ≤ range.len) (hpos : range.len ≠ 0) (hin : ∀ call ∈ pre, call.1 + call.2.length ≤ n)
    (h : Agrees f n range pre) : recvDocs (heapDocOf f n) pre ≠ .ok (true, heap) := by
  intro hheap
  obtain ⟨complete, heap', reply, hheap', hreply, hbytes⟩ := h
  cases hheap.symm.trans hheap'
  obtain ⟨hbytes, -⟩ := hbytes rfl
  rcases List.eq_nil_or_concat' pre with rfl | ⟨pre, call, rfl⟩
  · cases hheap
  obtain ⟨_, _, hrun, htracks, hlast⟩ := exists_heap hn hin f
  cases hheap.symm.trans hrun
  obtain ⟨_, _, hrun', -, hlast'⟩ := exists_reply hn hin f hrange fun call hcall hne =>
    (recvDocs_ok hreply).2.2 call hcall hne trivial
  cases hreply.symm.trans hrun'
  have hfull := (hlast' pre call rfl).symm
  have hfull' := (hlast pre call rfl).symm
  rw [completes] at hfull hfull'
  split_ifs at hfull hfull'
  · exact hpos (of_decide_eq_true hfull)
  have hcard := of_decide_eq_true hfull
  have hcard' := of_decide_eq_true hfull'
  have hlen : n = range.len := hcard'.symm.trans hcard
  have hmarked : isMarked heap.setSegs (n - 1) := by
    rw [htracks.marked, (card_eq_iff htracks.le).mp hcard', Finset.mem_range]
    omega
  obtain ⟨m, hmem, hpresent⟩ := heapDocOf_run hheap
  obtain ⟨b, hb⟩ := hpresent _ hmarked
  obtain ⟨range', m', hmem', hmissing⟩ := replyDocOf_run hreply
  have hlen' := (recvDocs_ok hreply).1
  rw [hmem'] at hlen' hbytes
  rw [hmem] at hbytes
  have hsame : m'.take n = m := hbytes
  have hrangeLen : range'.len = range.len := hlen'
  rw [← hsame, List.getElem?_take_of_lt (by omega), hmissing _ (by omega)] at hb
  cases hb

end Runs

/-- A reply buffer stands for memory of its own only as long as the document is not complete, and then only if no segment is
as long as the buffer. -/
theorem replyBuffer_agrees_iff (hn : n < 2 ^ 64) (hrange : n ≤ range.len) (hcalls : ∀ call ∈ calls, call.1 + call.2.length ≤ n) :
    (∀ pre, pre <+: calls → Agrees f n range pre) ↔ range.len = 0 ∨ (∀ call ∈ calls, call.2 ≠ [] → call.2.length < range.len) ∧
      ∀ pre, pre <+: calls → ∀ heap, recvDocs (heapDocOf f n) pre ≠ .ok (true, heap) := by
  have hin (pre : List (ℕ × Bytes)) (hpre : pre <+: calls) : ∀ call ∈ pre, call.1 + call.2.length ≤ n :=
    fun call hcall => hcalls call (hpre.subset hcall)
  constructor
  · intro h
    by_cases hpos : range.len = 0
    · exact .inl hpos
    obtain ⟨complete, heap, reply, -, hreply, -⟩ := h calls (List.prefix_refl _)
    refine .inr ⟨fun call hcall hne => (recvDocs_ok hreply).2.2 call hcall hne trivial, fun pre hpre heap => ?_⟩
    exact not_complete hn hrange hpos (hin pre hpre) (h pre hpre)
  · rintro h pre hpre
    by_cases hpos : range.len = 0
    · exact agrees_of_empty hn (hin pre hpre) hrange hpos
    obtain ⟨hshort, hnot⟩ := h.resolve_left hpos
    exact agrees_of_incomplete hn (hin pre hpre) hrange hpos (fun call hcall => hshort call (hpre.subset hcall)) (hnot pre hpre)

/-- A segment that is marked as special. -/
def specialFrame : SegFrame := ⟨4, some 2, some 2, 0, [7], true, true, false, false⟩

theorem replyBuffer_agrees_oneByte : (∀ pre, pre <+: [(0, [7])] → Agrees specialFrame 2 ⟨0, 2⟩ pre) ↔
    (⟨0, 2⟩ : BufRange).len = 0 ∨ (∀ call ∈ [(0, [(7 : UInt8)])], call.2 ≠ [] → call.2.length < (⟨0, 2⟩ : BufRange).len) ∧
      ∀ pre, pre <+: [(0, [7])] → ∀ heap, recvDocs (heapDocOf specialFrame 2) pre ≠ .ok (true, heap) :=
  replyBuffer_agrees_iff (by decide) (by decide) (by decide)

/-- Two bytes, one after the other: a buffer that is longer is never complete, one of the same length has both at its start, and
all of them at once are too many for it. -/
theorem not_agrees_twoBytes : ¬ Agrees specialFrame 2 ⟨0, 3⟩ [(0, [7]), (1, [8])] ∧ ¬ Agrees specialFrame 2 ⟨0, 2⟩ [(0, [7]), (1, [8])] ∧
    recvDocs (replyDocOf specialFrame 2 ⟨0, 2⟩) [(0, [7, 8])] = .panic .assertion := by
  have hheap : (recvDocs (heapDocOf specialFrame 2) [(0, [7]), (1, [8])]).map (fun r => (r.1, r.2.mem.bytes)) =
      .ok (true, [some 7, some 8]) := by decide +kernel
  refine ⟨?_, ?_, by decide +kernel⟩
  · rintro ⟨complete, heap, reply, hrun, hrun', -⟩
    have hreply : (recvDocs (replyDocOf specialFrame 2 ⟨0, 3⟩) [(0, [7]), (1, [8])]).map Prod.fst = .ok false := by decide +kernel
    rw [hrun] at hheap
    rw [hrun'] at hreply
    cases (Prod.mk.inj (Except.ok.inj hheap)).1.symm.trans (Except.ok.inj hreply)
  · rintro ⟨complete, heap, reply, hrun, hrun', hbytes⟩
    have hreply : (recvDocs (replyDocOf specialFrame 2 ⟨0, 2⟩) [(0, [7]), (1, [8])]).map (fun r => r.2.mem.bytes) =
        .ok [some 8, none] := by decide +kernel
    rw [hrun] at hheap
    rw [hrun'] at hreply
    obtain ⟨rfl, hheapBytes⟩ := Prod.mk.inj (Except.ok.inj hheap)
    have hreplyBytes : reply.mem.bytes = [some 8, none] := Except.ok.inj hreply
    have hsame := (hbytes rfl).1
    rw [hheapBytes, hreplyBytes] at hsame
    revert hsame
    decide

end Pqsnet.Session
