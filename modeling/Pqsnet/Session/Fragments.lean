import Pqsnet.Session.Context
import Pqsnet.Session.Received
import Pqsnet.Transport.Correctness

/-! Receiving handshake fragments from anyone: which packets can make the receiver panic. -/

namespace Pqsnet.Session

open Checked Outcome Transport Desegmenter

namespace Desegmenter

/-- The number of marked positions. -/
def markCount (setSegs : List (BitVec 64)) : ℕ :=
  ((Finset.range (setSegs.length * 64)).filter fun p => marked setSegs p = true).card

lemma markCount_le (setSegs : List (BitVec 64)) : markCount setSegs ≤ setSegs.length * 64 :=
  (Finset.card_filter_le _ _).trans_eq (Finset.card_range _)

section Marks

variable {setSegs setSegs' : List (BitVec 64)} {a b : ℕ} {ks : List ℕ}

lemma Marks.filter_subset (h : Marks setSegs setSegs' a b ks) :
    (Finset.range (setSegs.length * 64)).filter (fun p => marked setSegs p = true) ⊆
      (Finset.range (setSegs'.length * 64)).filter fun p => marked setSegs' p = true := by
  intro p hp
  rw [Finset.mem_filter] at hp ⊢
  rw [h.length_eq, h.marked_eq, hp.2]
  exact ⟨hp.1, rfl⟩

lemma Marks.markCount_le (h : Marks setSegs setSegs' a b ks) : markCount setSegs ≤ markCount setSegs' :=
  Finset.card_le_card h.filter_subset

lemma Marks.markCount_lt (h : Marks setSegs setSegs' a b ks) {p : ℕ} (ha : a ≤ p) (hb : p < b)
    (hlen : b ≤ setSegs.length * 64) (hk : p / 64 ∈ ks) (hp : marked setSegs p = false) :
    markCount setSegs < markCount setSegs' := by
  apply Finset.card_lt_card
  refine ⟨h.filter_subset, fun hsub => ?_⟩
  have hmem : p ∈ (Finset.range (setSegs'.length * 64)).filter fun p => marked setSegs' p = true := by
    rw [Finset.mem_filter, Finset.mem_range, h.length_eq, h.marked_eq, decide_eq_true ⟨⟨ha, hb⟩, hk⟩, Bool.or_true]
    exact ⟨by omega, rfl⟩
  have hold := (Finset.mem_filter.mp (hsub hmem)).2
  rw [hp] at hold
  cases hold

end Marks

/-- What holds of the fragments kept in the table. A call that copies marks a byte, so the count of
bytes is bounded even where bytes are copied twice. -/
structure Held (d : Desegmenter) : Prop where
  mem : ∃ m, d.mem = some m ∧ m.length = d.len
  pos : 0 < d.len
  small : d.len < 2 ^ 30
  words : d.setSegs.length = (d.len + 63) / 64
  total : d.totalSet ≤ d.len * markCount d.setSegs

variable {d : Desegmenter} {packet : Bytes} {a b j off segLen : ℕ}

lemma Held.totalSet_lt (h : Held d) : d.totalSet ≤ 2 ^ 61 := by
  have h1 := h.total
  have h2 := markCount_le d.setSegs
  have h3 := h.small
  have h4 := h.words
  have h5 : markCount d.setSegs ≤ 2 ^ 31 := by omega
  calc d.totalSet ≤ d.len * markCount d.setSegs := h1
    _ ≤ 2 ^ 30 * 2 ^ 31 := Nat.mul_le_mul h3.le h5

lemma held_empty {n : ℕ} (h0 : 0 < n) (h : n < 2 ^ 30) : Held (empty (List.replicate n 0) n) where
  mem := ⟨List.replicate n 0, rfl, List.length_replicate⟩
  pos := h0
  small := h
  words := by simp [empty]
  total := Nat.zero_le _

lemma runOverUnsetRanges_empty {ε : Type} {setSegs : List (BitVec 64)} (ha : a % 64 ≠ 0)
    (hlen : a / 64 < setSegs.length) : (runOverUnsetRanges setSegs a a : Outcome ε _) = .ok (setSegs, []) := by
  have hw : a / 64 = (a - 1) / 64 := by omega
  have hbits : segBitsAt a (a - 1) (a / 64) = 0#64 := by
    apply BitVec.eq_of_getLsbD_eq
    intro t ht
    rw [getLsbD_segBitsAt ht le_rfl hw.le, BitVec.getLsbD_zero, decide_eq_false_iff_not]
    omega
  obtain ⟨calls, start, hcheck, hdone⟩ := checkAndSetBits_spec (ε := ε) hlen (0#64) none (by simp)
  obtain ⟨rfl, rfl⟩ := hdone.skip (by rw [newBits, BitVec.and_zero])
  have hset : setSegs.set (a / 64) (setSegs.getD (a / 64) 0 ||| 0#64) = setSegs := by
    rw [BitVec.or_zero, List.getD_eq_getElem?_getD, List.getElem?_eq_getElem hlen, Option.getD_some,
      List.set_getElem_self]
  rw [hset] at hcheck
  simp only [runOverUnsetRanges, sub_ok (show 1 ≤ a by omega), ok_bind, visits_eq hw.le, wordsOf, if_pos hw,
    List.map_cons, List.map_nil, hbits, checkEach, hcheck]
  rfl

lemma Held.recvInner {ε : Type} (h : Held d) (hle : off + segLen ≤ d.len) (hp : j + segLen ≤ packet.length)
    (hok : 0 < segLen ∨ off % 64 ≠ 0) :
    ∃ o d' i, (recvInner d packet j off segLen : Outcome ε _) = .ok (o, d', i) ∧
      (d.totalSet + segLen < d.len → o = none) ∧ (o = none → Held d') := by
  obtain ⟨m, hmem, hml⟩ := h.mem
  have hsmall := h.small
  have hwords := h.words
  have htotal := h.totalSet_lt
  obtain ⟨b, rfl⟩ : ∃ b, segLen = b - off := ⟨off + segLen, by omega⟩
  rcases Nat.lt_or_ge off b with hab | hba
  · have hlen : b ≤ d.setSegs.length * 64 := by omega
    obtain ⟨setSegs', calls, hrun, hr, hsorted, hcov, hmarks, hnew⟩ := runOverUnsetRanges_spec (ε := ε) hab hlen
    by_cases hnil : calls = []
    · subst hnil
      refine ⟨_, _, _, recvInner_nil hab.le (by omega) (by omega) hrun, fun _ => rfl, fun _ =>
        ⟨⟨m, hmem, hml⟩, h.pos, hsmall, hmarks.length_eq.trans hwords, ?_⟩⟩
      exact h.total.trans (Nat.mul_le_mul_left _ hmarks.markCount_le)
    · obtain ⟨p, h1, h2, h3, h4⟩ := hnew hnil
      have hlt := hmarks.markCount_lt h1 h2 hlen h3 h4
      have hsum : (cover calls).length ≤ b - off := by
        have hsub : (cover calls).toFinset ⊆ Finset.Ico off b := fun q hq =>
          Finset.mem_Ico.mpr (hcov q (List.mem_toFinset.mp hq))
        have hcard := Finset.card_le_card hsub
        rwa [List.toFinset_card_of_nodup (hsorted.imp fun h => ne_of_lt h), Nat.card_Ico] at hcard
      obtain ⟨r, hrc⟩ := List.exists_mem_of_ne_nil calls hnil
      obtain ⟨m', hml', -, heq⟩ := recvInner_cons (ε := ε) hab.le (by omega) hmem (by omega) hp (by omega)
        (List.length_pos_of_mem (mem_cover.mpr ⟨r, hrc, le_rfl, (hr r hrc).2.1⟩)) hr hrun
      split at heq
      · exact ⟨_, _, _, heq, fun hlt => by omega, fun hn => by cases hn⟩
      · refine ⟨_, _, _, heq, fun _ => rfl, fun _ => ⟨⟨m', rfl, hml'.trans hml⟩, h.pos, hsmall, hmarks.length_eq.trans hwords, ?_⟩⟩
        calc d.totalSet + (cover calls).length ≤ d.len * markCount d.setSegs + d.len := Nat.add_le_add h.total (by omega)
          _ = d.len * (markCount d.setSegs + 1) := by ring
          _ ≤ d.len * markCount setSegs' := Nat.mul_le_mul_left _ hlt
  · have hoff : off % 64 ≠ 0 := hok.resolve_left (by omega)
    have hrun := runOverUnsetRanges_empty (ε := ε) (a := off) hoff (show off / 64 < d.setSegs.length by omega)
    have hinner : (Desegmenter.recvInner d packet j off (off - off) : Outcome ε _) =
        .ok (none, d.after d.mem d.setSegs [], j + (off - off)) := recvInner_nil le_rfl (by omega) (by omega) hrun
    rw [Nat.sub_self] at hinner
    rw [Nat.sub_eq_zero_of_le hba]
    exact ⟨_, _, _, hinner, fun _ => rfl, fun _ => ⟨⟨m, hmem, hml⟩, h.pos, hsmall, hwords, h.total⟩⟩

lemma readHeader_eq_ok {ε : Type} {idx : ℕ} (hi : idx ≤ packet.length) :
    ∃ header i, (readHeader packet idx fragmentFlags : Outcome ε _) = .ok (header, i) := by
  have field : ∀ i ≤ packet.length, ∃ o i', (readField true packet i : Outcome ε _) = .ok (o, i') ∧
      (o.isSome → i' ≤ packet.length) := by
    intro i hi
    obtain ⟨v, i', hread, hle⟩ := tryRead_eq_ok (ε := ε) (2 ^ 64 - 1) packet i
    refine ⟨v.map some, i', ?_, fun h => (hle (by simpa using h)).2⟩
    simp only [readField, ↓reduceIte, varusizeTryRead, hread, ok_bind]
  obtain ⟨ml, i₁, h₁, hle₁⟩ := field idx hi
  unfold readHeader
  simp only [fragmentFlags, h₁, ok_bind]
  cases ml with
  | none => exact ⟨_, _, rfl⟩
  | some ml =>
    obtain ⟨o, i₂, h₂, hle₂⟩ := field i₁ (hle₁ rfl)
    simp only [h₂, ok_bind]
    cases o with
    | none => exact ⟨_, _, rfl⟩
    | some o =>
      simp only [readSegLen, sub_ok (hle₂ rfl), ok_bind, ↓reduceIte]
      split
      · exact ⟨_, _, rfl⟩
      · exact ⟨_, _, rfl⟩

end Desegmenter

/-- The packet is read as an empty segment of a message that is not empty, at a word boundary. -/
def EmptyAligned (packet : Bytes) : Prop :=
  ∃ off n i, (readHeader packet handshakeNoLen fragmentFlags : Outcome Empty _) = .ok (some (off, 0, some n), i) ∧
    n ≠ 0 ∧ off % 64 = 0

/-- The packet announces a message that is larger than any allocation. -/
def Oversized (packet : Bytes) : Prop :=
  ∃ off segLen n i, (readHeader packet handshakeNoLen fragmentFlags : Outcome Empty _) =
    .ok (some (off, segLen, some n), i) ∧ 2 ^ 63 ≤ n

variable {packet : Bytes} {d : Desegmenter}

/-- A header of a fragment that is accepted, and what a packet that is not `EmptyAligned` says more. -/
lemma header_cases (hi : handshakeNoLen ≤ packet.length) (hp : ¬ EmptyAligned packet) :
    (∃ i, (readHeader packet handshakeNoLen fragmentFlags : Outcome Empty _) = .ok (none, i)) ∨
      ∃ off segLen n i, (readHeader packet handshakeNoLen fragmentFlags : Outcome Empty _) =
          .ok (some (off, segLen, some n), i) ∧ off + segLen ≤ n ∧ i + segLen = packet.length ∧
        (n < 2 ^ 30 ∨ 2 ^ 63 ≤ n) ∧ (n = 0 ∨ 0 < segLen ∨ off % 64 ≠ 0) := by
  obtain ⟨header, i, hread⟩ := readHeader_eq_ok (ε := Empty) hi
  match header with
  | none => exact .inl ⟨i, hread⟩
  | some (off, segLen, messageLen) =>
    obtain ⟨-, hlen, hsome, hend⟩ := readHeader_inv hread
    obtain ⟨n, rfl⟩ := Option.isSome_iff_exists.mp (hsome rfl)
    obtain ⟨hle, hval⟩ := hlen n rfl
    refine .inr ⟨off, segLen, n, i, hread, hle, hend rfl, by omega, ?_⟩
    by_contra hno
    push Not at hno
    obtain ⟨hn, hs, ho⟩ := hno
    obtain rfl : segLen = 0 := by omega
    exact hp ⟨off, n, i, hread, hn, ho⟩

lemma recvMut_held (h : Held d) (hi : handshakeNoLen ≤ packet.length) (hp : ¬ EmptyAligned packet) :
    ∃ r d' i, (recvMut d packet handshakeNoLen fragmentFlags : Outcome Empty _) = .ok (r, d', i) ∧
      (∀ e, r = .error e → Held d') := by
  unfold recvMut Desegmenter.recv
  rcases header_cases hi hp with ⟨i, hread⟩ | ⟨off, segLen, n, i, hread, hle, hend, hn, hok⟩
  · simp only [hread, ok_bind]
    exact ⟨_, _, _, rfl, fun _ _ => h⟩
  · simp only [hread, ok_bind]
    split
    · exact ⟨_, _, _, rfl, fun _ _ => h⟩
    · rename_i hlen
      have hlen : n = d.len := by
        by_contra hne
        exact hlen ⟨n, rfl, hne⟩
      have hpos : 0 < d.len := h.pos
      obtain ⟨o, d', i', hinner, -, hheld⟩ := h.recvInner (ε := Empty) (by omega) hend.le (hok.resolve_left (by omega))
      simp only [hinner, ok_bind]
      cases o with
      | none => exact ⟨_, _, _, rfl, fun _ _ => hheld rfl⟩
      | some m => exact ⟨_, _, _, rfl, fun e he => by cases he⟩

lemma tryNew_held (hi : handshakeNoLen ≤ packet.length) (hp : ¬ EmptyAligned packet) :
    ((tryNew boxMalloc packet handshakeNoLen fragmentFlags : Outcome Empty _) = .panic .capacity ∧ Oversized packet) ∨
      ∃ r i, (tryNew boxMalloc packet handshakeNoLen fragmentFlags : Outcome Empty _) = .ok (r, i) ∧
        (r = .invalid ∨ (∃ d, r = .segmented d ∧ Held d) ∨ ∃ a b, r = .singleSeg (a, b) ∧ a ≤ b ∧ b ≤ packet.length) := by
  unfold tryNew
  rcases header_cases hi hp with ⟨i, hread⟩ | ⟨off, segLen, n, i, hread, hle, hend, hn, hok⟩
  · simp only [hread, ok_bind]
    exact .inr ⟨_, _, rfl, .inl rfl⟩
  · simp only [hread, ok_bind]
    split
    · exact .inr ⟨_, _, rfl, .inr (.inr ⟨_, _, rfl, by omega, by omega⟩)⟩
    rename_i hne
    by_cases hbig : n < 2 ^ 63
    · have hmalloc : (boxMalloc n : Outcome Empty _) = .ok (some (List.replicate n 0)) := by
        rw [boxMalloc, if_pos hbig]
      obtain ⟨o, d', i', hinner, hnone, hheld⟩ := (held_empty (show 0 < n by omega) (by omega)).recvInner
        (ε := Empty) hle hend.le (hok.resolve_left (by omega))
      simp only [hmalloc, ok_bind, hinner]
      exact .inr ⟨_, _, rfl, .inr (.inl ⟨d', rfl, hheld (hnone (by
        change 0 + segLen < n
        omega))⟩)⟩
    · have hmalloc : (boxMalloc n : Outcome Empty _) = .panic .capacity := by
        rw [boxMalloc, if_neg hbig]
      exact .inl ⟨by rw [hmalloc, panic_bind], off, segLen, n, i, hread, not_lt.mp hbig⟩

namespace Context

variable {C : CryptoAndMem} {ctx ctx' : Context C} {env : Env C}

/-- The fragments an entry has are as they should be. -/
def Good (ctx : Context C) : Prop :=
  ∀ no entry pending d keep, ctx.handshakeTable no = some entry → entry.waiting = some (pending, some d, keep) → Held d

lemma Good.setEntry (h : Good ctx) (no : ℕ) {entry : HandshakeEntry C}
    (he : ∀ pending d keep, entry.waiting = some (pending, some d, keep) → Held d) :
    Good (ctx.setEntry no entry) := by
  intro no' entry' pending d keep htab hw
  simp only [Context.setEntry, Function.update_apply] at htab
  split at htab
  · cases htab
    exact he pending d keep hw
  · exact h no' entry' pending d keep htab hw

lemma Good.setCoolDown (h : Good ctx) (no : ℕ) : Good (ctx.setEntry no .coolDown) :=
  h.setEntry no fun pending d keep hw => by cases hw

lemma Good.keep (h : Good ctx) (no : ℕ) {entry : HandshakeEntry C} {pending : Pending C} {d : Desegmenter}
    {o : Option Desegmenter} {keep : Desegmenter → HandshakeEntry C} (hw : entry.waiting = some (pending, o, keep))
    (hd : Held d) : Good (ctx.setEntry no (keep d)) := by
  refine h.setEntry no fun pending' d' keep' hk => ?_
  cases entry with
  | coolDown => cases hw
  | responderRecv e => cases hw; cases hk; exact hd
  | initiatorSent id e m state => cases hw; cases hk; exact hd
  | responderSent id e m state => cases hw; cases hk; exact hd

/-- The packet carries a handshake message, and `EmptyAligned` where its fragment is read. -/
def Hollow (packet : Bytes) : Prop :=
  (∃ socketId i, (varu64TryRead packet 0 : Outcome Empty _) = .ok (some socketId, i) ∧
    socketId ≤ socketIdConfirmMessage) ∧ EmptyAligned packet

/-- The packet is received, with the table as it should be, or it could not be allocated. -/
def Safe (packet : Bytes) (x : Outcome Empty (Fragment C × Context C)) : Prop :=
  (x = .panic .capacity ∧ Oversized packet) ∨ ∃ f ctx', x = .ok (f, ctx') ∧ Good ctx'

section Receive

variable {packet : Bytes} {no : ℕ} {pending : Pending C} {keep : Desegmenter → HandshakeEntry C}

lemma Good.firstFragment (h : Good ctx) (hi : handshakeNoLen ≤ packet.length) (hp : ¬ EmptyAligned packet)
    (hkeep : ∀ d, Held d → Good (ctx.setEntry no (keep d))) :
    Safe packet (firstFragment ctx packet no pending keep) := by
  unfold Context.firstFragment
  rcases tryNew_held hi hp with ⟨hnew, hover⟩ | ⟨r, i, hnew, hr⟩
  · exact .inl ⟨by rw [hnew, panic_bind], hover⟩
  · rw [hnew, ok_bind]
    rcases hr with rfl | ⟨d, rfl, hd⟩ | ⟨a, b, rfl, hab, hb⟩
    · exact .inr ⟨_, _, rfl, h⟩
    · exact .inr ⟨_, _, rfl, hkeep d hd⟩
    · dsimp only
      rw [slice_ok hab hb, ok_bind]
      exact .inr ⟨_, _, rfl, h.setCoolDown no⟩

lemma Good.nextFragment {d : Desegmenter} (h : Good ctx) (hd : Held d) (hi : handshakeNoLen ≤ packet.length)
    (hp : ¬ EmptyAligned packet) (hkeep : ∀ d, Held d → Good (ctx.setEntry no (keep d))) :
    Safe packet (nextFragment ctx packet no pending d keep) := by
  unfold Context.nextFragment
  obtain ⟨r, d', i, hrecv, hheld⟩ := recvMut_held hd hi hp
  rw [hrecv, ok_bind]
  cases r with
  | ok m => exact .inr ⟨_, _, rfl, h.setCoolDown no⟩
  | error e => exact .inr ⟨_, _, rfl, hkeep d' (hheld e rfl)⟩

lemma Good.recvFragment (h : Good ctx) (hp : ¬ Hollow packet) : Safe packet (recvFragment ctx packet) := by
  obtain ⟨v, i, hread, -⟩ := tryRead_eq_ok (ε := Empty) (2 ^ 64 - 1) packet 0
  simp only [Context.recvFragment, varu64TryRead, hread, ok_bind]
  cases v with
  | none => exact .inr ⟨_, _, rfl, h⟩
  | some socketId =>
    dsimp only
    split
    swap
    · exact .inr ⟨_, _, rfl, h⟩
    unfold recvReserved
    split
    · exact .inr ⟨_, _, rfl, h⟩
    rename_i hlen
    have hi := not_lt.mp hlen
    split
    · exact .inr ⟨_, _, rfl, h⟩
    rename_i hid
    replace hp : ¬ EmptyAligned packet := fun he => hp ⟨⟨socketId, i, hread, not_lt.mp hid⟩, he⟩
    rw [slice_ok (Nat.zero_le _) hi, ok_bind]
    dsimp only
    generalize fromBe ((packet.take handshakeNoLen).drop 0) = no
    cases htab : ctx.handshakeTable no with
    | none =>
      dsimp only
      split
      · exact .inr ⟨_, _, rfl, h⟩
      · apply h.firstFragment hi hp
        intro d hd
        have hw : (HandshakeEntry.responderRecv (C := C) d).waiting = some (.initMessage, some d, .responderRecv) := rfl
        exact h.keep no hw hd
    | some entry =>
      cases hw : entry.waiting with
      | none =>
        simp only [hw]
        exact .inr ⟨_, _, rfl, h⟩
      | some w =>
        obtain ⟨pending, o, keep⟩ := w
        cases o with
        | none =>
          simp only [hw]
          exact h.firstFragment hi hp fun d hd => h.keep no hw hd
        | some d =>
          simp only [hw]
          exact h.nextFragment (h no entry pending d keep htab hw) hi hp fun d hd => h.keep no hw hd

end Receive

lemma Good.of_table_eq (h : Good ctx) (he : ctx'.handshakeTable = ctx.handshakeTable) : Good ctx' := by
  intro no entry pending d keep htab
  rw [he] at htab
  exact h no entry pending d keep htab

section Process

variable {ε : Type} {no : ℕ} {message : Bytes}

lemma createPayload_inv {payload : Bytes} {id : ℕ} (h : (createPayload ctx env : Outcome ε _) = .ok (payload, id, ctx')) :
    ctx' = ctx.setSocket id (some none) := by
  unfold createPayload at h
  split at h
  · simp only [ok_inj, Prod.mk.injEq] at h
    obtain ⟨-, rfl, rfl⟩ := h
    rfl
  · exact absurd h (panic_ne_ok _ _)

lemma Good.openHandshake (h : Good ctx) {random : ℕ}
    (hopen : (openHandshake ctx env random : Outcome ε _) = .ok ctx') : Good ctx' := by
  simp only [Context.openHandshake, bind_eq_ok, ok_inj] at hopen
  obtain ⟨replyNo, -, ⟨payload, id, c⟩, hpay, o, -, ⟨m, state⟩, -, rfl⟩ := hopen
  obtain rfl := createPayload_inv hpay
  apply (h.of_table_eq rfl).setEntry
  intro pending d keep hw
  cases hw

lemma Good.recvInitMessage (h : Good ctx) (hr : (recvInitMessage ctx env no message : Outcome ε _) = .ok ctx') :
    Good ctx' := by
  simp only [Context.recvInitMessage, bind_eq_ok] at hr
  obtain ⟨decoded, -, hr⟩ := hr
  cases decoded with
  | error e =>
    cases hr
    exact h.of_table_eq rfl
  | ok init =>
    simp only [bind_eq_ok] at hr
    obtain ⟨⟨payload, id, c⟩, hpay, encoded, -, hr⟩ := hr
    obtain rfl := createPayload_inv hpay
    rcases encoded with e | _ | ⟨m, state⟩
    · cases hr
      exact h.of_table_eq rfl
    · cases hr
      exact h.of_table_eq rfl
    · simp only [bind_eq_ok] at hr
      obtain ⟨replyNo, -, confirmNo, -, hr⟩ := hr
      split at hr
      · cases hr
        exact h.of_table_eq rfl
      · cases hr
        apply (h.of_table_eq rfl).setEntry
        intro pending d keep hw
        cases hw

lemma Good.dispatch (h : Good ctx) {pending : Pending C}
    (hr : (dispatch ctx env no pending message : Outcome ε _) = .ok ctx') : Good ctx' := by
  cases pending with
  | initMessage => exact h.recvInitMessage hr
  | reply id state =>
    simp only [Context.dispatch, bind_eq_ok] at hr
    obtain ⟨r, -, hr⟩ := hr
    cases r <;> cases hr <;> exact h.of_table_eq rfl
  | confirm id state =>
    simp only [Context.dispatch, bind_eq_ok] at hr
    obtain ⟨r, -, hr⟩ := hr
    cases r <;> cases hr <;> exact h.of_table_eq rfl

lemma recvData_table {packet : Bytes} {socketId idx : ℕ}
    (hr : (recvData ctx packet socketId idx : Outcome ε _) = .ok ctx') : ctx'.handshakeTable = ctx.handshakeTable := by
  unfold recvData at hr
  split at hr
  swap
  · cases hr; rfl
  split at hr
  · cases hr; rfl
  rw [bind_eq_ok] at hr
  obtain ⟨j, -, hr⟩ := hr
  split at hr
  · cases hr; rfl
  simp only [bind_eq_ok] at hr
  obtain ⟨bytes, -, rest, -, hr⟩ := hr
  split at hr
  · cases hr; rfl
  · cases hr; rfl

end Process

lemma Good.recv {packet : Bytes} (h : Good ctx) (hp : ¬ Hollow packet)
    (hr : (recv ctx env packet : Outcome Empty _) = .ok ctx') : Good ctx' := by
  rw [Context.recv, bind_eq_ok] at hr
  obtain ⟨⟨fragment, c⟩, hfrag, hr⟩ := hr
  have hc : Good c := by
    rcases h.recvFragment hp with ⟨hpanic, -⟩ | ⟨f, c', hok, hgood⟩
    · rw [hpanic] at hfrag
      exact absurd hfrag (panic_ne_ok _ _)
    · rw [hok] at hfrag
      cases hfrag
      exact hgood
  cases fragment with
  | dropped =>
    cases hr
    exact hc
  | message no pending m => exact hc.dispatch hr
  | data socketId idx => exact hc.of_table_eq (recvData_table hr)

/-- The contexts of a receiver that opens handshakes and receives packets, none of them `Hollow`. -/
inductive Reachable : Context C → Prop
  | new {ctx : Context C} (h : ctx.handshakeTable = fun _ => none) : Reachable ctx
  | opened {ctx ctx' : Context C} {env : Env C} {random : ℕ} (h : Reachable ctx)
      (hopen : (openHandshake ctx env random : Outcome Empty _) = .ok ctx') : Reachable ctx'
  -- a complete message whose processing does not come back has still put its entry on cool down
  | fragment {ctx ctx' : Context C} {packet : Bytes} {f : Fragment C} (h : Reachable ctx) (hp : ¬ Hollow packet)
      (hr : (recvFragment ctx packet : Outcome Empty _) = .ok (f, ctx')) : Reachable ctx'
  | received {ctx ctx' : Context C} {env : Env C} {packet : Bytes} (h : Reachable ctx) (hp : ¬ Hollow packet)
      (hr : (Context.recv ctx env packet : Outcome Empty _) = .ok ctx') : Reachable ctx'

lemma Reachable.good (h : Reachable ctx) : Good ctx := by
  induction h with
  | new h =>
    intro no entry pending d keep htab
    rw [h] at htab
    cases htab
  | opened _ hopen ih => exact ih.openHandshake hopen
  | fragment _ hp hr ih =>
    rcases ih.recvFragment hp with ⟨hpanic, -⟩ | ⟨f, c', hok, hgood⟩
    · rw [hpanic] at hr
      exact absurd hr (panic_ne_ok _ _)
    · rw [hok] at hr
      cases hr
      exact hgood
  | received _ hp hr ih => exact ih.recv hp hr

/-- Unless it is read as an empty segment at a word boundary, a packet does not make the receiver panic,
but for the allocation of a message that no machine could hold. -/
theorem recvFragment_returns (h : Reachable ctx) {packet : Bytes} (hp : ¬ Hollow packet) :
    (∃ f ctx', (recvFragment ctx packet : Outcome Empty _) = .ok (f, ctx')) ∨
      ((recvFragment ctx packet : Outcome Empty _) = .panic .capacity ∧ Oversized packet) := by
  rcases h.good.recvFragment hp with hpanic | ⟨f, ctx', hok, -⟩
  · exact .inr hpanic
  · exact .inl ⟨f, ctx', hok⟩

/-- A context before anything was received. -/
def fresh : Context (plain fun _ => Arr.zeros) :=
  ⟨fun _ => none, fun _ => none, plain.bundle fun _ => Arr.zeros, []⟩

/-- The first packet of handshake number 0: the length of the message, an offset and the bytes there. -/
def initFragment (n off : UInt8) (data : Bytes) : Bytes := List.replicate handshakeNoLen 0 ++ [n, off] ++ data

lemma initFragment_header :
    (readHeader (initFragment 2 0 [7]) handshakeNoLen fragmentFlags : Outcome Empty _) =
      .ok (some (0, 1, some 2), 18) := by rfl

theorem recvFragment_returns_half : ¬ Hollow (initFragment 2 0 [7]) ∧
    ((∃ f ctx', (recvFragment fresh (initFragment 2 0 [7]) : Outcome Empty _) = .ok (f, ctx')) ∨
      ((recvFragment fresh (initFragment 2 0 [7]) : Outcome Empty _) = .panic .capacity ∧
        Oversized (initFragment 2 0 [7]))) := by
  have hp : ¬ Hollow (initFragment 2 0 [7]) := by
    rintro ⟨-, off, n, i, hread, -⟩
    rw [initFragment_header] at hread
    cases hread
  exact ⟨hp, recvFragment_returns (.new rfl) hp⟩

/-- One packet without data is enough to bring down the receiver. -/
theorem empty_fragment_panics : Reachable fresh ∧ Hollow (initFragment 1 0 []) ∧
    (recvFragment fresh (initFragment 1 0 []) : Outcome Empty _) = .panic .arith :=
  ⟨.new rfl, ⟨⟨0, 1, by rfl, by decide⟩, 0, 1, 18, by rfl, by decide, by decide⟩, by rfl⟩

end Context

end Pqsnet.Session
