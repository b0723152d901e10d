import Pqsnet.Session.Conservation
import Pqsnet.Session.SegmentPackets

/-! The parent that a new document names. -/

namespace Pqsnet.Session

open Checked Outcome SessionInner

variable {T ε : Type}

lemma tryRead_wide {v : ℕ} (hv : varintU32Max < v) (a c : Bytes) :
    (tryRead (2 ^ 64 - 1) (a ++ (varusizeWrite v ++ c)) a.length : Outcome ε _) =
      .ok (some ((v ||| 0b11 <<< 62) % 2 ^ 64), a.length + varusizeLen v) := by
  have h16 : ¬ v ≤ varintU16Max := by
    simp only [varintU16Max, varintU32Max] at hv ⊢
    omega
  have hwrite : varusizeWrite v = toBe 8 (v ||| 0b11 <<< 62) := by
    rw [varusizeWrite, if_neg h16, if_neg (not_le.mpr hv)]
  have hlen : varusizeLen v = 8 := by
    rw [varusizeLen, if_neg h16, if_neg (not_le.mpr hv)]
  have htop : (v ||| 0b11 <<< 62) / 2 ^ 62 % 2 ^ 2 = 3 := by
    have hlt : v >>> 62 % 2 ^ 2 < 4 := Nat.mod_lt _ (by norm_num)
    rw [← Nat.shiftRight_eq_div_pow, Nat.shiftRight_or_distrib, Nat.shiftLeft_shiftRight, Nat.or_mod_two_pow]
    generalize v >>> 62 % 2 ^ 2 = y at hlt
    interval_cases y <;> rfl
  generalize v ||| 0b11 <<< 62 = x at hwrite htop ⊢
  have hx : (a ++ (toBe 8 x ++ c))[a.length]? = _ := getElem?_toBe rfl rfl
  have hd : (UInt8.ofNat (x / 256 ^ 7 % 256)).toNat / 64 = 3 := by
    rw [UInt8.toNat_ofNat']
    omega
  rw [hwrite, hlen, tryRead_index _ hx, hd]
  change readWide 8 _ _ _ = _
  have hle : x % 2 ^ 64 ≤ 2 ^ 64 - 1 := by omega
  rw [readWide_mid _ rfl (toBe_length _ _) rfl, fromBe_toBe, show (256 : ℕ) ^ 8 = 2 ^ 64 by norm_num, if_pos hle]

lemma readVar_written (v : ℕ) : ∃ n, ∀ a c : Bytes,
    SegFrame.readVar (a ++ (varusizeWrite v ++ c)) a.length = .ok (n, a.length + varusizeLen v) := by
  by_cases hv : v ≤ varintU32Max
  · exact ⟨v, fun a c => SegFrame.readVar_write (roundTrips_of_le hv) rfl rfl⟩
  · refine ⟨(v ||| 0b11 <<< 62) % 2 ^ 64, fun a c => ?_⟩
    rw [SegFrame.readVar, varusizeTryRead, tryRead_wide (not_le.mp hv), ok_bind]

lemma readDocLen_written (has : Bool) (v : ℕ) (a c : Bytes) : ∃ n,
    SegFrame.readDocLen has (a ++ ((if has then varusizeWrite v else []) ++ c)) a.length =
      .ok (n, a.length + (if has then varusizeWrite v else []).length) := by
  cases has with
  | false => exact ⟨none, rfl⟩
  | true =>
    obtain ⟨n, hn⟩ := readVar_written v
    refine ⟨some n, ?_⟩
    rw [SegFrame.readDocLen, if_pos rfl, if_pos rfl, hn, ok_bind, varusizeWrite_length]

namespace Segment

variable {seg : Segment}

/-- A segment that names its own document as the parent is refused. -/
lemma parse_own_parent (form : Form) (hself : seg.docParentNo = seg.docNo)
    (hfirst : hasFlag seg.variant variantSegFlagIsFirst) (debug : Bool) (a c : Bytes) :
    SegFrame.parse debug (seg.variant ||| form.code) (a ++ (seg.frame form ++ c)) (a.length + 1) = .err .invalid := by
  have hflag : ∀ flag : UInt8, variantSegLenMask &&& flag = 0 →
      hasFlag (seg.variant ||| form.code) flag = hasFlag seg.variant flag := fun flag h => hasFlag_or _ (form.code_and h)
  have hparent : (hasFlag seg.variant variantSegFlagHasSpecialParent || hasFlag seg.variant variantSegFlagIsFirst) = true := by
    rw [hfirst, Bool.or_true]
  obtain ⟨n, hn⟩ := readVar_written seg.docNo
  obtain ⟨docLen, hdocLen⟩ := readDocLen_written (hasFlag seg.variant variantSegFlagHasDocLen) seg.docLen
    (a ++ [seg.variant ||| form.code] ++ varusizeWrite seg.docNo) (varusizeWrite seg.docNo ++ (seg.payload form ++ c))
  have hframe : a ++ (seg.frame form ++ c) = a ++ [seg.variant ||| form.code] ++ (varusizeWrite seg.docNo ++
      ((if hasFlag seg.variant variantSegFlagHasDocLen then varusizeWrite seg.docLen else []) ++
        (varusizeWrite seg.docNo ++ (seg.payload form ++ c)))) := by
    rw [frame, fields, hparent, hfirst, if_pos rfl, if_pos rfl, hself]
    simp only [varu64Write, List.append_assoc, List.cons_append, List.nil_append]
  rw [hframe, SegFrame.parse, hflag variantSegFlagHasSpecialParent rfl, hflag variantSegFlagIsFirst rfl,
    hflag variantSegFlagHasDocLen rfl]
  dsimp only
  have hstart : a.length + 1 = (a ++ [seg.variant ||| form.code]).length := by
    rw [List.length_append, List.length_singleton]
  rw [hstart, hn, ok_bind]
  dsimp only
  rw [← List.append_assoc, ← varusizeWrite_length, ← List.length_append, hdocLen, ok_bind]
  dsimp only
  rw [← List.append_assoc, ← List.length_append, hparent, SegFrame.readParent, if_pos rfl, hn, ok_bind]
  dsimp only
  rw [if_pos le_rfl, err_bind]

lemma tryNew_first {docNo cap : ℕ} {doc doc' : SendDoc} {isClosed : Bool} (hoff : doc.nextSegOff = 0)
    (hnew : (tryNew docNo doc isClosed cap : Outcome ε _) = .ok (.ok (seg, doc'))) :
    hasFlag seg.variant variantSegFlagIsFirst ∧ seg.docNo = docNo ∧ seg.docParentNo = doc.parentNo := by
  have hflag : ∀ closed special more : Bool, ∀ single ∈ [variantSegFlagIsSingleSeg, flagIf more variantSegFlagHasDocLen],
      hasFlag (flagIf closed variantSegFlagIsClosed ||| variantSegFlagIsFirst |||
        flagIf special variantSegFlagHasSpecialParent ||| single) variantSegFlagIsFirst := by decide +kernel
  rw [tryNew] at hnew
  dsimp only at hnew
  split_ifs at hnew with hdone hroom
  · cases hnew
  · cases hnew
    exact ⟨hflag isClosed doc.hasSpecialParent false _ List.mem_cons_self, rfl, rfl⟩
  · rw [tryPart] at hnew
    generalize doc.hasBeenAcked = acked at hnew
    by_cases hfit : 1 + varu64Len docNo + varu64Len doc.parentNo + (if acked then 0 else varusizeLen doc.data.length) +
        minSegDataLen > cap
    · rw [if_pos hfit] at hnew
      cases hnew
    · rw [if_neg hfit] at hnew
      obtain ⟨_, -, hnew⟩ := bind_eq_ok.mp hnew
      obtain ⟨_, -, hnew⟩ := bind_eq_ok.mp hnew
      obtain ⟨_, -, hnew⟩ := bind_eq_ok.mp hnew
      obtain ⟨_, -, hnew⟩ := bind_eq_ok.mp hnew
      cases hnew
      exact ⟨hflag isClosed doc.hasSpecialParent _ _ (List.mem_cons_of_mem _ List.mem_cons_self), rfl, rfl⟩

end Segment

namespace Channel

variable {s : SessionInner T} {h : Hand} {c : Channel} {doc : Bytes} {replyBuffer : SpecialReplyState}

/-- The slot of a document that was just sent. -/
def Sending (s : SessionInner T) (docNo : ℕ) (d : SendDoc) : Prop :=
  ∃ entry, s.sendTable[s.sendIdx docNo]? = some entry ∧ entry.docNo = docNo ∧ entry.doc = some d

/-- A new document names itself as its parent. -/
lemma yields_sendSlot_parent {fuel : ℕ} (hpos : 0 < s.sendTable.length) :
    Yields (fun r : Channel × SessionInner T => Sending r.2 r.1.docNo ⟨r.1.docNo, c.hasSpecialParent, false, 0, doc⟩)
      (c.sendSlot doc replyBuffer fuel s : Outcome ε _) := by
  induction fuel generalizing s with
  | zero => trivial
  | succ fuel ih =>
    rw [sendSlot, slot]
    dsimp only
    rw [if_neg hpos.ne', ok_bind, entryAt]
    split
    · rename_i e he
      rw [ok_bind]
      split_ifs
      · exact ih hpos
      · refine ⟨⟨s.sendDocNo, false, some ⟨s.sendDocNo, c.hasSpecialParent, false, 0, doc⟩, some ⟨1, [], replyBuffer⟩⟩, ?_, rfl, rfl⟩
        rw [sendIdx, setSend]
        dsimp only
        rw [List.length_set]
        exact getElem?_set_of_getElem? he _
    · trivial

lemma yields_trySendAny_parent (hpos : 0 < s.sendTable.length) :
    Yields (fun r : Except (TrySendError × Bytes) Channel × SessionInner T => ∀ c', r.1 = .ok c' → doc.length < 2 ^ 64 ∧
      Sending r.2 c'.docNo ⟨c'.docNo, c.hasSpecialParent, false, 0, doc⟩) (c.trySendAny doc replyBuffer s : Outcome ε _) := by
  rw [trySendAny]
  apply (ends_add (Q := fun _ => True) trivial trivial).bind
  intro sendTotal _
  dsimp only
  split_ifs
  · exact fun c' hc => by cases hc
  · exact fun c' hc => by cases hc
  · exact fun c' hc => by cases hc
  · apply (yields_self _).bind
    intro sendBytesTotal hadd
    split_ifs
    · exact fun c' hc => by cases hc
    · apply (yields_sendSlot_parent (s := { s with sendTotal := sendTotal, sendBytesTotal := sendBytesTotal }) hpos).bind
      rintro ⟨c', s'⟩ hsending c'' hc
      cases hc
      refine ⟨?_, hsending⟩
      rw [add] at hadd
      split_ifs at hadd with hlt
      · omega
      · cases hadd

end Channel

namespace World

variable [LT T] [DecidableLT T] {w : World T} {c c' : Channel} {doc : Bytes} {replyBuffer : SpecialReplyState} {s' : SessionInner T}

/-- The parent of a document, as sender and peer should agree on it. -/
structure ParentAgreed (c c' : Channel) (d : SendDoc) : Prop where
  parent : d.parentNo = c.docNo
  older : d.parentNo < c'.docNo

/-- They never do: a document that is sent names itself as its parent, and the peer refuses its first segment. -/
theorem trySendAny_not_agreed (hw : w.Reachable)
    (hsend : (c.trySendAny doc replyBuffer w.session : Outcome ε _) = .ok (.ok c', s')) :
    ∃ d, Channel.Sending s' c'.docNo d ∧ ¬ ParentAgreed c c' d ∧
      ∀ (p : PacketBuilder) (isClosed : Bool) (seg : Segment) (d' : SendDoc), p.Roomy →
        (Segment.tryNew c'.docNo d isClosed (p.mtu - p.buf.length) : Outcome ε _) = .ok (.ok (seg, d')) →
        ∃ full q variant, (p.appendSeg seg : Outcome ε _) = .ok (full, q) ∧ q.buf[p.buf.length]? = some variant ∧
          ∀ debug, SegFrame.parse debug variant q.buf (p.buf.length + 1) = .err .invalid := by
  obtain ⟨hlen, hsending⟩ := (Channel.yields_trySendAny_parent hw.ok.session.sendPos).ok hsend c' rfl
  refine ⟨_, hsending, fun hagreed => absurd hagreed.older (lt_irrefl _), fun p isClosed seg d' hp hnew => ?_⟩
  obtain ⟨hfirst, hno, hparent⟩ := Segment.tryNew_first rfl hnew
  have hfits := (Segment.tryNew_fits (P := fun _ => True) hlen).ok hnew _ rfl
  obtain ⟨full, q, form, happend, hplaced, -, -⟩ := PacketBuilder.appendSeg_placed (ε := ε) hp
    (Nat.add_sub_cancel' hp.room) (hfits.1 ▸ hfits.2)
  refine ⟨full, q, seg.variant ||| form.code, happend, ?_, fun debug => ?_⟩
  · rw [hplaced.buf, List.getElem?_append_right le_rfl, Nat.sub_self, Segment.frame]
    rfl
  · have hparse := Segment.parse_own_parent form (hparent.trans hno.symm) hfirst debug p.buf []
    rw [List.append_nil, ← hplaced.buf] at hparse
    exact hparse

/-- The first document that is sent on a channel: its parent should be 0 and is 1. -/
theorem trySend_names_itself : ∃ s', (Channel.trySend ⟨0, false, false⟩ [5] oneChannel.session : Outcome Unit _) =
      .ok (.ok ⟨1, false, false⟩, s') ∧ Channel.Sending s' 1 ⟨1, false, false, 0, [5]⟩ ∧
      ¬ ParentAgreed ⟨0, false, false⟩ ⟨1, false, false⟩ ⟨1, false, false, 0, [5]⟩ :=
  ⟨_, rfl, ⟨_, rfl, rfl, rfl⟩, fun h => absurd h.parent (by decide)⟩

theorem not_agreed_oneChannel : ∃ s' d, (Channel.trySendAny ⟨0, false, false⟩ [5] .none oneChannel.session : Outcome Unit _) =
      .ok (.ok ⟨1, false, false⟩, s') ∧ Channel.Sending s' 1 d ∧ ¬ ParentAgreed ⟨0, false, false⟩ ⟨1, false, false⟩ d := by
  have hsend : (Channel.trySendAny ⟨0, false, false⟩ [5] .none oneChannel.session : Outcome Unit _) = .ok (.ok ⟨1, false, false⟩, _) := rfl
  obtain ⟨d, hd, hnot, -⟩ := trySendAny_not_agreed ⟨oneChannel, [], oneChannel_initial, rfl⟩ hsend
  exact ⟨_, d, hsend, hd, hnot⟩

end World

end Pqsnet.Session
