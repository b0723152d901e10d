import Pqsnet.Session.Arrival

/-! Which bytes of a document count as received. -/

namespace Pqsnet.Session.RecvDoc

open Checked Outcome

variable {n off segOff segEnd k : ℕ} {M : Finset ℕ} {doc : RecvDoc} {seg : Bytes} {calls : List (ℕ × Bytes)}

instance : Decidable (Skipped segOff segEnd k) := inferInstanceAs (Decidable (_ ∧ _))

/-- The bytes that a segment covers. -/
def span (call : ℕ × Bytes) : Finset ℕ := Finset.Ico call.1 (call.1 + call.2.length)

/-- Those of them that are marked. -/
def kept (call : ℕ × Bytes) : Finset ℕ := (span call).filter fun k => ¬ Skipped call.1 (call.1 + call.2.length - 1) k

def received (calls : List (ℕ × Bytes)) : Finset ℕ := (cover (calls.map fun call => (call.1, call.1 + call.2.length))).toFinset

lemma received_concat (calls : List (ℕ × Bytes)) (call : ℕ × Bytes) : received (calls ++ [call]) = received calls ∪ span call := by
  ext k
  simp only [received, span, List.map_append, cover_append, List.toFinset_append, Finset.mem_union, List.map_singleton, cover_cons,
    cover_nil, List.append_nil, List.mem_toFinset, List.mem_range'_1, Finset.mem_Ico, Nat.add_sub_cancel_left]

/-- The bitmap of a document of length `n` has the bytes in `M`, and they are counted. -/
structure Tracks (n : ℕ) (M : Finset ℕ) (doc : RecvDoc) : Prop where
  words : doc.setSegs.length = (n + 63) / 64
  marked : ∀ k, isMarked doc.setSegs k ↔ k ∈ M
  total : doc.totalRecv = M.card
  le : M ⊆ Finset.range n

lemma card_eq_bitCount {setSegs : List (BitVec 64)} (h : ∀ k, isMarked setSegs k ↔ k ∈ M) : M.card = bitCount setSegs := by
  have hM : M = (marked setSegs).toFinset := by
    ext k
    rw [List.mem_toFinset, mem_marked (by decide), h]
  have hnodup : (marked setSegs).Nodup := List.nodup_range.filter _
  rw [hM, List.toFinset_card_of_nodup hnodup, marked_length (by decide), bitCount]

lemma kept_subset_range (hle : off + seg.length ≤ n) : kept (off, seg) ⊆ Finset.range n := by
  intro k hk
  obtain ⟨hspan, -⟩ := Finset.mem_filter.mp hk
  exact Finset.mem_range.mpr ((Finset.mem_Ico.mp hspan).2.trans_le hle)

lemma Tracks.recvDoc (h : Tracks n M doc) (hn : n < 2 ^ 64) (hne : seg ≠ []) (hle : off + seg.length ≤ n) (hlen : n ≤ doc.mem.len) :
    ∃ setSegs, doc.recvDoc off seg = (do
        let mem ← doc.mem.write off seg
        .ok (decide ((M ∪ kept (off, seg)).card = doc.mem.len),
          { doc with setSegs := setSegs, totalRecv := (M ∪ kept (off, seg)).card, mem := mem })) ∧
      ∀ mem, Tracks n (M ∪ kept (off, seg)) { doc with setSegs := setSegs, totalRecv := (M ∪ kept (off, seg)).card, mem := mem } := by
  have hpos : 0 < seg.length := List.length_pos_iff.mpr hne
  obtain ⟨ms, hms, hidx⟩ := marks_eq (ε := RecvError) (show off ≤ off + seg.length - 1 by omega)
  have hindex : ¬ ∃ x ∈ ms, doc.setSegs.length ≤ x.1 := by
    rintro ⟨x, hx, hge⟩
    have := hidx x hx
    rw [h.words] at hge
    omega
  have hends : Ends (fun _ => False) (fun _ => False) _ (checkOverlaps ms doc.setSegs : Outcome RecvError _) :=
    ends_checkOverlaps hindex
  rcases hover : (checkOverlaps ms doc.setSegs : Outcome RecvError _) with (p | e) | ⟨m, setSegs⟩
  · exact absurd (hends.panic hover) id
  · exact absurd (hends.err hover) id
  obtain ⟨hwords, hcount⟩ := hends.ok hover
  have hmarked : ∀ k, isMarked setSegs k ↔ k ∈ M ∪ kept (off, seg) := by
    intro k
    rw [isMarked_checkOverlaps hover, mem_marks (by omega) hms, h.marked, Finset.mem_union, kept, Finset.mem_filter, span, Finset.mem_Ico]
    have hend : k ≤ off + seg.length - 1 ↔ k < off + seg.length := by omega
    rw [hend]
  have hsubset : M ∪ kept (off, seg) ⊆ Finset.range n := Finset.union_subset h.le (kept_subset_range hle)
  have htotal : doc.totalRecv + m = (M ∪ kept (off, seg)).card := by
    rw [card_eq_bitCount hmarked, h.total, card_eq_bitCount h.marked]
    exact hcount.symm
  have hcard : (M ∪ kept (off, seg)).card ≤ n := by simpa using Finset.card_le_card hsubset
  refine ⟨setSegs, ?_, fun mem => ⟨hwords.trans h.words, hmarked, rfl, hsubset⟩⟩
  rw [RecvDoc.recvDoc]
  dsimp only
  rw [if_neg fun hempty => hne (List.isEmpty_iff.mp hempty), add_ok (by omega), ok_bind, sub_ok (by omega), ok_bind,
    if_neg (by omega), hms, ok_bind, hover, ok_bind]
  dsimp only
  rw [add_ok (by omega), ok_bind, htotal]

section Runs

/-- The answer to the last of the segments, and what they leave. -/
def recvDocs (doc : RecvDoc) (calls : List (ℕ × Bytes)) : Outcome RecvError (Bool × RecvDoc) :=
  calls.foldlM (fun r call => r.2.recvDoc call.1 call.2) (false, doc)

/-- A segment that is refused leaves the document as it was. -/
def recvNext (doc : RecvDoc) (off : ℕ) (seg : Bytes) : Outcome Empty (Except RecvError Bool × RecvDoc) := do
  match ← attempt (doc.recvDoc off seg) with
  | .ok (complete, doc) => .ok (.ok complete, doc)
  | .error e => .ok (.error e, doc)

/-- A document of length `n` of which nothing was received. -/
def Untouched (n : ℕ) (doc : RecvDoc) : Prop := doc.setSegs = List.replicate ((n + 63) / 64) 0 ∧ doc.totalRecv = 0

def keptBytes (calls : List (ℕ × Bytes)) : Finset ℕ := calls.toFinset.biUnion kept

/-- What is answered to a segment. -/
def completes (len : ℕ) (pre : List (ℕ × Bytes)) (call : ℕ × Bytes) : Bool :=
  if call.2 = [] then len = 0 else (keptBytes (pre ++ [call])).card = len

variable {doc' : RecvDoc} {complete : Bool} {call : ℕ × Bytes} {pre : List (ℕ × Bytes)}

lemma recvDocs_concat (doc : RecvDoc) (calls : List (ℕ × Bytes)) (call : ℕ × Bytes) :
    recvDocs doc (calls ++ [call]) = recvDocs doc calls >>= fun r => r.2.recvDoc call.1 call.2 := by
  simp only [recvDocs, List.foldlM_append, List.foldlM_cons, List.foldlM_nil, bind_pure]

lemma recvDocs_invariant {I : RecvDoc → Prop} (hstep : ∀ doc doc' off seg complete, seg ≠ [] → I doc →
    RecvDoc.recvDoc doc off seg = .ok (complete, doc') → I doc') (hdoc : I doc) (h : recvDocs doc calls = .ok (complete, doc')) :
    I doc' := by
  induction calls using List.reverseRecOn generalizing complete doc' with
  | nil =>
    cases h
    exact hdoc
  | append_singleton calls call ih =>
    rw [recvDocs_concat] at h
    obtain ⟨⟨complete₁, doc₁⟩, hpre, h⟩ := bind_eq_ok.mp h
    by_cases hne : call.2 = []
    · rw [RecvDoc.recvDoc, hne] at h
      cases h
      exact ih hpre
    · exact hstep _ _ _ _ _ hne (ih hpre) h

lemma keptBytes_concat (calls : List (ℕ × Bytes)) (call : ℕ × Bytes) : keptBytes (calls ++ [call]) = keptBytes calls ∪ kept call := by
  rw [keptBytes, List.toFinset_append, Finset.union_biUnion]
  simp [keptBytes]

lemma Untouched.tracks (h : Untouched n doc) : Tracks n ∅ doc := by
  refine ⟨?_, fun k => ?_, h.2, Finset.empty_subset _⟩
  · rw [h.1, List.length_replicate]
  · rw [h.1]
    exact iff_of_false (not_isMarked_replicate _ k) (Finset.notMem_empty k)

lemma write_ok {ε : Type} {mem mem' : DocMem} (hle : off + seg.length ≤ mem.len) (h : (mem.write off seg : Outcome ε _) = .ok mem') :
    mem'.len = mem.len ∧ (mem'.Borrowed ↔ mem.Borrowed) ∧ (mem.Borrowed → seg.length < mem.len) := by
  cases mem with
  | simple m =>
    rw [DocMem.write] at h
    obtain ⟨stop, hstop, h⟩ := bind_eq_ok.mp h
    obtain rfl := eq_of_add_eq_ok hstop
    have hm : off + seg.length ≤ m.length := hle
    rw [if_pos ⟨Nat.le_add_right _ _, hm⟩] at h
    cases h
    refine ⟨?_, Iff.rfl, fun hb => absurd hb id⟩
    simp only [DocMem.len, List.length_append, List.length_take, List.length_map, List.length_drop]
    omega
  | replyBuf range m =>
    rw [DocMem.write] at h
    split_ifs at h with hshort
    · cases h
      exact ⟨rfl, Iff.rfl, fun _ => hshort⟩
    · cases h

lemma exists_write (mem : DocMem) (hle : off + seg.length ≤ mem.len) (hn : off + seg.length < 2 ^ 64)
    (hshort : mem.Borrowed → seg.length < mem.len) : ∃ mem', (mem.write off seg : Outcome RecvError _) = .ok mem' := by
  cases mem with
  | simple m =>
    have hm : off + seg.length ≤ m.length := hle
    rw [DocMem.write, add_ok hn, ok_bind, if_pos ⟨Nat.le_add_right _ _, hm⟩]
    exact ⟨_, rfl⟩
  | replyBuf range m =>
    have hlt : seg.length < range.len := hshort trivial
    rw [DocMem.write, if_pos hlt]
    exact ⟨_, rfl⟩

lemma recvDocs_ok (h : recvDocs doc calls = .ok (complete, doc')) : doc'.mem.len = doc.mem.len ∧
    (doc'.mem.Borrowed ↔ doc.mem.Borrowed) ∧ ∀ call ∈ calls, call.2 ≠ [] → doc.mem.Borrowed → call.2.length < doc.mem.len := by
  induction calls using List.reverseRecOn generalizing complete doc' with
  | nil =>
    cases h
    exact ⟨rfl, Iff.rfl, fun call hcall => absurd hcall List.not_mem_nil⟩
  | append_singleton calls call ih =>
    rw [recvDocs_concat] at h
    obtain ⟨⟨complete₁, doc₁⟩, hpre, h⟩ := bind_eq_ok.mp h
    obtain ⟨hlen, hkind, hshort⟩ := ih hpre
    by_cases hne : call.2 = []
    · rw [RecvDoc.recvDoc, hne] at h
      cases h
      refine ⟨hlen, hkind, fun x hx hx' => ?_⟩
      rcases List.mem_append.mp hx with hx | hx
      · exact hshort x hx hx'
      · exact absurd (List.mem_singleton.mp hx ▸ hne) hx'
    · obtain ⟨ms, m, setSegs, mem, hle, -, -, hwrite, -, -, hmem⟩ := recvDoc_ok hne h
      obtain ⟨hlen', hkind', hshort'⟩ := write_ok hle hwrite
      rw [← hmem] at hlen' hkind'
      refine ⟨hlen'.trans hlen, hkind'.trans hkind, fun x hx hx' hb => ?_⟩
      rcases List.mem_append.mp hx with hx | hx
      · exact hshort x hx hx' hb
      · rw [List.mem_singleton.mp hx, ← hlen]
        exact hshort' (hkind.mpr hb)

lemma Untouched.recvDocs (h : Untouched n doc) (hn : n < 2 ^ 64) (hlen : n ≤ doc.mem.len)
    (hcalls : ∀ call ∈ calls, call.1 + call.2.length ≤ n ∧ (call.2 ≠ [] → doc.mem.Borrowed → call.2.length < doc.mem.len)) :
    ∃ complete doc', recvDocs doc calls = .ok (complete, doc') ∧ Tracks n (keptBytes calls) doc' ∧
      ∀ pre call, calls = pre ++ [call] → complete = completes doc.mem.len pre call := by
  induction calls using List.reverseRecOn with
  | nil => exact ⟨false, doc, rfl, h.tracks, fun pre call hnil => absurd hnil (by simp)⟩
  | append_singleton calls call ih =>
    obtain ⟨complete, doc₁, hpre, htracks, -⟩ := ih fun x hx => hcalls x (List.mem_append_left _ hx)
    obtain ⟨hlen₁, hkind, -⟩ := recvDocs_ok hpre
    obtain ⟨hle, hshort⟩ := hcalls call (List.mem_append_right _ (List.mem_singleton_self _))
    rw [recvDocs_concat, hpre, ok_bind]
    have hlast {x : Bool} (hx : x = completes doc.mem.len calls call) :
        ∀ pre y, calls ++ [call] = pre ++ [y] → x = completes doc.mem.len pre y := by
      intro pre y heq
      obtain ⟨rfl, hsame⟩ := List.append_inj' heq rfl
      rw [hx, List.singleton_inj.mp hsame]
    by_cases hne : call.2 = []
    · have hempty : kept call = ∅ := by simp [kept, span, hne]
      refine ⟨decide (doc₁.mem.len = 0), doc₁, by rw [RecvDoc.recvDoc, hne]; rfl, ?_, hlast ?_⟩
      · rwa [keptBytes_concat, hempty, Finset.union_empty]
      · rw [completes, if_pos hne, hlen₁]
    · obtain ⟨setSegs, hrecv, htracks'⟩ := htracks.recvDoc hn hne hle (hlen.trans hlen₁.ge)
      obtain ⟨mem, hmem⟩ := exists_write doc₁.mem (show call.1 + call.2.length ≤ _ by omega) (by omega)
        fun hb => hlen₁.symm ▸ hshort hne (hkind.mp hb)
      rw [← keptBytes_concat] at hrecv htracks'
      rw [hmem, ok_bind] at hrecv
      exact ⟨_, _, hrecv, htracks' mem, hlast (by rw [completes, if_neg hne, hlen₁])⟩

/-- After these segments exactly the bytes that they cover are marked and counted, and the last of them was answered with
whether the document is complete. -/
def Exact (doc : RecvDoc) (n : ℕ) (calls : List (ℕ × Bytes)) : Prop := ∃ complete doc', recvDocs doc calls = .ok (complete, doc') ∧
  (∀ k, isMarked doc'.setSegs k ↔ k ∈ received calls) ∧ doc'.totalRecv = (received calls).card ∧
  (calls ≠ [] → (complete = true ↔ received calls = Finset.range n))

lemma mem_span_of_skipped (hk : Skipped call.1 (call.1 + call.2.length - 1) k) : k ∈ span call := by
  obtain ⟨hfar, hlast⟩ := hk
  rw [span, Finset.mem_Ico]
  omega

/-- The words that the calls skip came before. -/
def Filled (calls : List (ℕ × Bytes)) : Prop :=
  ∀ pre call, pre ++ [call] <+: calls → ∀ k, Skipped call.1 (call.1 + call.2.length - 1) k → k ∈ received pre

lemma keptBytes_eq_received (h : Filled calls) : keptBytes calls = received calls := by
  induction calls using List.reverseRecOn with
  | nil => rfl
  | append_singleton calls call ih =>
    rw [keptBytes_concat, received_concat, ih fun pre x hx => h pre x (hx.trans (List.prefix_append _ _))]
    ext k
    rw [Finset.mem_union, Finset.mem_union, kept, Finset.mem_filter]
    constructor
    · exact Or.imp_right And.left
    · rintro (hk | hk)
      · exact .inl hk
      · by_cases hs : Skipped call.1 (call.1 + call.2.length - 1) k
        · exact .inl (h calls call (List.prefix_refl _) k hs)
        · exact .inr ⟨hk, hs⟩

lemma card_eq_iff (hM : M ⊆ Finset.range n) : M.card = n ↔ M = Finset.range n := by
  constructor
  · intro h
    exact Finset.eq_of_subset_of_card_le hM (by rw [Finset.card_range, h])
  · rintro rfl
    exact Finset.card_range n

lemma Tracks.exact_iff (h : Tracks n (keptBytes calls) doc') (hrun : recvDocs doc calls = .ok (complete, doc'))
    (hlast : calls ≠ [] → complete = decide ((keptBytes calls).card = n)) : Exact doc n calls ↔ keptBytes calls = received calls := by
  constructor
  · rintro ⟨_, _, hrun', hmarked, -⟩
    cases hrun.symm.trans hrun'
    ext k
    rw [← h.marked, hmarked]
  · intro heq
    rw [heq] at h hlast
    refine ⟨complete, doc', hrun, h.marked, h.total, fun hne => ?_⟩
    rw [hlast hne, decide_eq_true_eq, card_eq_iff h.le]

lemma Untouched.exact_iff (hdoc : Untouched n doc) (hn : n < 2 ^ 64) (hlen : doc.mem.len = n)
    (hcalls : ∀ call ∈ calls, call.2 ≠ [] ∧ call.1 + call.2.length ≤ n) (hshort : ∀ call ∈ calls, doc.mem.Borrowed → call.2.length < n) :
    Exact doc n calls ↔ keptBytes calls = received calls := by
  obtain ⟨complete, doc', hrun, htracks, hlast⟩ := hdoc.recvDocs hn hlen.ge
    fun call hcall => ⟨(hcalls call hcall).2, fun _ hb => hlen.symm ▸ hshort call hcall hb⟩
  refine htracks.exact_iff hrun fun hne => ?_
  obtain ⟨pre, call, rfl⟩ := (List.eq_nil_or_concat' calls).resolve_left hne
  have hcall := (hcalls call (List.mem_append_right _ (List.mem_singleton_self _))).1
  rw [hlast pre call rfl, completes, if_neg hcall, hlen]

lemma filled_of_exact (h : ∀ pre, pre <+: calls → keptBytes pre = received pre) : Filled calls := by
  intro pre call hpre k hk
  have hmem : k ∈ keptBytes (pre ++ [call]) := by
    rw [h _ hpre, received_concat, Finset.mem_union]
    exact .inr (mem_span_of_skipped hk)
  rw [keptBytes_concat, Finset.mem_union, kept, Finset.mem_filter] at hmem
  rw [← h pre ((List.prefix_append _ _).trans hpre)]
  exact hmem.resolve_right fun hkept => hkept.2 hk

lemma recvNext_past (hlen : doc.mem.len = n) (hne : seg ≠ []) (hpast : n < off + seg.length) :
    recvNext doc off seg = .ok (.error .invalid, doc) ↔ off + seg.length < 2 ^ 64 := by
  have hpos : 0 < seg.length := List.length_pos_iff.mpr hne
  have hempty : ¬ seg.isEmpty := fun h => hne (List.isEmpty_iff.mp h)
  rw [recvNext, RecvDoc.recvDoc, add]
  dsimp only
  rw [if_neg hempty]
  split_ifs with hsmall
  · rw [ok_bind, sub_ok (by omega), ok_bind, if_pos (by omega)]
    exact iff_of_true rfl hsmall
  · exact iff_of_false (fun h => (by cases h)) hsmall

/-- The loop over the words in the middle of a segment skips the last of them, so the bytes of a document are counted as they
come if and only if those of every skipped word came before. A segment that goes into a reply buffer has to be shorter than it. -/
theorem accounts_iff (hn : n < 2 ^ 64) (hdoc : Untouched n doc) (hlen : doc.mem.len = n)
    (hcalls : ∀ call ∈ calls, call.2 ≠ [] ∧ call.1 + call.2.length ≤ n) :
    ((∀ pre, pre <+: calls → Exact doc n pre) ↔ (∀ call ∈ calls, doc.mem.Borrowed → call.2.length < n) ∧ Filled calls) ∧
    ∀ complete doc', recvDocs doc calls = .ok (complete, doc') → ∀ off seg, seg ≠ [] → n < off + seg.length →
      (recvNext doc' off seg = .ok (.error .invalid, doc') ↔ off + seg.length < 2 ^ 64) := by
  have hexact (hshort : ∀ call ∈ calls, doc.mem.Borrowed → call.2.length < n) (pre : List (ℕ × Bytes)) (hpre : pre <+: calls) :
      Exact doc n pre ↔ keptBytes pre = received pre :=
    hdoc.exact_iff hn hlen (fun call hcall => hcalls call (hpre.subset hcall)) fun call hcall => hshort call (hpre.subset hcall)
  refine ⟨⟨fun h => ?_, fun ⟨hshort, hfilled⟩ pre hpre => ?_⟩, fun complete doc' hrun off seg => recvNext_past ?_⟩
  · obtain ⟨complete, doc', hrun, -⟩ := h calls (List.prefix_refl _)
    have hshort : ∀ call ∈ calls, doc.mem.Borrowed → call.2.length < n := fun call hcall hb =>
      hlen ▸ (recvDocs_ok hrun).2.2 call hcall (hcalls call hcall).1 hb
    exact ⟨hshort, filled_of_exact fun pre hpre => (hexact hshort pre hpre).mp (h pre hpre)⟩
  · exact (hexact hshort pre hpre).mpr (keptBytes_eq_received fun pre' call hcall => hfilled pre' call (hcall.trans hpre))
  · exact (recvDocs_ok hrun).1.trans hlen

/-- A document of that length in memory of its own. -/
def heapDoc (n : ℕ) : RecvDoc := ⟨false, some 0, .simple (List.replicate n none), 0, List.replicate ((n + 63) / 64) 0, n⟩

lemma heapDoc_untouched (n : ℕ) : Untouched n (heapDoc n) := ⟨rfl, rfl⟩

/-- Two bytes, the second one first. -/
def twoBytes : List (ℕ × Bytes) := [(1, [7]), (0, [7])]

theorem accounts_twoBytes : (∀ pre, pre <+: twoBytes → Exact (heapDoc 2) 2 pre) ↔
    (∀ call ∈ twoBytes, (heapDoc 2).mem.Borrowed → call.2.length < 2) ∧ Filled twoBytes :=
  (accounts_iff (by decide) (heapDoc_untouched 2) rfl (by decide)).1

/-- The whole document in one segment: the second of its three words is not counted. The sum of offset and length of a
segment may also overflow. -/
theorem not_exact_threeWords : ¬ Exact (heapDoc 192) 192 [(0, List.replicate 192 7)] ∧
    recvNext (heapDoc 192) (2 ^ 64 - 1) [7] = .panic .arith := by
  refine ⟨?_, rfl⟩
  rintro ⟨complete, doc, hrun, -, htotal, -⟩
  have hcount : (recvDocs (heapDoc 192) [(0, List.replicate 192 7)]).map (fun r => r.2.totalRecv) = .ok 128 := by decide +kernel
  have hcard : (received [(0, List.replicate 192 7)]).card = 192 := by
    rw [← List.nil_append [(0, List.replicate 192 7)], received_concat, received, List.map_nil, cover_nil, List.toFinset_nil,
      Finset.empty_union, span, Nat.card_Ico, Nat.add_sub_cancel_left, List.length_replicate]
  rw [hrun] at hcount
  have h128 : doc.totalRecv = 128 := Except.ok.inj hcount
  omega

end Runs

end Pqsnet.Session.RecvDoc
