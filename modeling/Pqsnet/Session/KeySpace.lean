import Pqsnet.Session.Handshakes

/-! The keys of the table of handshakes: their top byte says which message is waited for, as long as
no packet writes its socket id in more bytes than it needs. -/

namespace Pqsnet.Session

open Checked Outcome Transport

variable {C : CryptoAndMem}

/-- The reserved socket id of the packets that an entry takes. -/
def HandshakeEntry.socketId : HandshakeEntry C → Option ℕ
  | coolDown => none
  | responderRecv _ => some socketIdInitMessage
  | initiatorSent _ _ _ _ => some socketIdResponseMessage
  | responderSent _ _ _ _ => some socketIdConfirmMessage

lemma HandshakeEntry.socketId_keep {entry : HandshakeEntry C} {pending : Pending C} {o : Option Desegmenter}
    {keep : Desegmenter → HandshakeEntry C} (hw : entry.waiting = some (pending, o, keep)) (d : Desegmenter) :
    (keep d).socketId = entry.socketId := by
  cases entry <;> cases hw <;> rfl

def topByte (handshakeNo : ℕ) : ℕ := handshakeNo >>> (128 - 8)

lemma topByte_eq (no : ℕ) : topByte no = no / handshakeNoSocketIdInc := by
  rw [topByte, Nat.shiftRight_eq_div_pow, handshakeNoSocketIdInc, Nat.one_shiftLeft]

lemma topByte_add (no : ℕ) : topByte (no + handshakeNoSocketIdInc) = topByte no + 1 := by
  rw [topByte_eq, topByte_eq, Nat.add_div_right _ (by decide)]

/-- The socket id of a packet is its first byte. -/
def OneByte (packet : Bytes) : Prop := ∃ b ∈ packet.head?, b.toNat < 64

section Packet

variable {packet : Bytes} {socketId no : ℕ}

lemma Addresses.head (h : Addresses packet socketId no) : ∃ b ∈ packet.head?,
    no / handshakeNoSocketIdInc = b.toNat ∧ no < (b.toNat + 1) * handshakeNoSocketIdInc ∧ b.toNat / 64 ≠ 3 ∧
      (b.toNat < 64 → socketId = b.toNat) := by
  obtain ⟨⟨idx, hread⟩, hknown, hlong, hno⟩ := h
  cases packet with
  | nil => exact absurd hlong (by decide)
  | cons b rest =>
    have hinc : handshakeNoSocketIdInc = 256 ^ 15 := by decide
    have hrest : (rest.take 15).length = 15 := by
      rw [List.length_take]
      change 16 ≤ rest.length + 1 at hlong
      omega
    have hlow := fromBe_lt (rest.take 15)
    change no = fromBe (b :: rest.take 15) at hno
    rw [fromBe_cons, hrest, ← hinc] at hno
    rw [hrest, ← hinc] at hlow
    rw [varu64TryRead, tryRead_index _ (List.getElem?_cons_zero)] at hread
    refine ⟨b, rfl, ?_, ?_, fun h3 => ?_, fun hb => ?_⟩
    · rw [hno, Nat.add_comm, Nat.add_mul_div_right _ _ (by decide), Nat.div_eq_of_lt hlow, Nat.zero_add]
    · rw [hno, Nat.add_mul, Nat.one_mul]
      exact Nat.add_lt_add_left hlow _
    · -- eight bytes with both width bits set are a large id
      rw [h3] at hread
      obtain ⟨low, -, hv⟩ := readWide_first (w := 7) List.getElem?_cons_zero hread
      change socketId ≤ 2 at hknown
      split at hv
      · cases hv
        omega
      · cases hv
    · rw [Nat.div_eq_of_lt hb] at hread
      cases hread
      rfl

lemma Addresses.topByte_iff (h : Addresses packet socketId no) : socketId = topByte no ↔ OneByte packet := by
  obtain ⟨b, hb, htop, -, -, hid⟩ := h.head
  have hone : OneByte packet ↔ b.toNat < 64 := by
    constructor
    · rintro ⟨c, hc, hlt⟩
      rw [Option.mem_def] at hb hc
      rw [hb, Option.some_inj] at hc
      rwa [hc]
    · exact fun hlt => ⟨b, hb, hlt⟩
  rw [topByte_eq, htop, hone]
  constructor
  · intro heq
    have hknown := h.known
    change socketId ≤ 2 at hknown
    omega
  · exact hid

lemma Addresses.add_lt (h : Addresses packet socketId no) : no + handshakeNoSocketIdInc + handshakeNoSocketIdInc < 2 ^ 128 := by
  obtain ⟨b, -, -, hlt, h3, -⟩ := h.head
  have hb := b.toNat_lt
  have hinc : handshakeNoSocketIdInc = 2 ^ 120 := by decide
  rw [hinc] at hlt ⊢
  have hle : (b.toNat + 1) * 2 ^ 120 ≤ 192 * 2 ^ 120 := Nat.mul_le_mul_right _ (by omega)
  omega

end Packet

namespace Context

variable {ctx ctx' : Context C} {no : ℕ} {P : Bytes → Prop}

/-- Where the entry under a key comes from. -/
inductive Origin (P : Bytes → Prop) (ctx : Context C) (no : ℕ) (entry' : HandshakeEntry C) : Prop
  | old {entry : HandshakeEntry C} (h : ctx.handshakeTable no = some entry)
      (hid : entry'.socketId = none ∨ entry'.socketId = entry.socketId)
  | init {packet : Bytes} (hp : P packet) (ha : Addresses packet socketIdInitMessage no)
      (hid : entry'.socketId = none ∨ entry'.socketId = some socketIdInitMessage)
  | reply {k : ℕ} (hk : k < handshakeNoSocketIdInc) (hno : no = k + handshakeNoSocketIdInc)
      (hid : entry'.socketId = some socketIdResponseMessage)
  | confirm {k : ℕ} (hk : ctx.AwaitsInit P k) (hno : no = k + handshakeNoSocketIdInc + handshakeNoSocketIdInc)
      (hid : entry'.socketId = some socketIdConfirmMessage)

lemma origin_update {k : ℕ} {e entry' : HandshakeEntry C} {T : ℕ → Option (HandshakeEntry C)}
    (hold : ∀ entry, T no = some entry → Origin P ctx no entry) (hnew : Origin P ctx k e)
    (h : Function.update T k (some e) no = some entry') : Origin P ctx no entry' := by
  rw [Function.update_apply] at h
  split at h
  · rename_i hk
    cases h
    rwa [hk]
  · exact hold _ h

lemma AwaitsInit.origin (h : ctx.AwaitsInit P no) : Origin P ctx no .coolDown := by
  rcases h with ⟨d, hd⟩ | ⟨⟨packet, hp, ha⟩, -⟩
  · exact .old hd (.inl rfl)
  · exact .init hp ha (.inl rfl)

lemma Effect.origin {entry' : HandshakeEntry C} (he : Effect P ctx ctx') (h : ctx'.handshakeTable no = some entry') :
    Origin P ctx no entry' := by
  have hold : ∀ entry, ctx.handshakeTable no = some entry → Origin P ctx no entry := fun entry h => .old h (.inr rfl)
  cases he with
  | idle => exact hold _ h
  | deliver id plaintext => exact hold _ h
  | opened hno _ _ => exact origin_update hold (.reply hno rfl rfl) h
  | started hp ha _ => exact origin_update hold (.init hp ha (.inr rfl)) h
  | kept htab hw => exact origin_update hold (.old htab (.inr (HandshakeEntry.socketId_keep hw _))) h
  | initFailed ha => exact origin_update hold ha.origin h
  | initComplete ha _ => exact origin_update hold ha.origin h
  | initSent ha _ _ => exact origin_update (fun _ => origin_update hold ha.origin) (.confirm ha rfl rfl) h
  | complete htab _ => exact origin_update hold (.old htab (.inl rfl)) h
  | failed htab _ => exact origin_update hold (.old htab (.inl rfl)) h

/-- The top byte of each key is the socket id of the packets its entry takes. -/
def Sorted (ctx : Context C) : Prop :=
  ∀ no entry, ctx.handshakeTable no = some entry → topByte no ≤ socketIdConfirmMessage ∧
    ∀ id, entry.socketId = some id → topByte no = id

lemma Sorted.awaitsInit (h : ctx.Sorted) (hP : ∀ packet, P packet → ∀ socketId no, Addresses packet socketId no → OneByte packet)
    (ha : ctx.AwaitsInit P no) : topByte no = 0 := by
  rcases ha with ⟨d, hd⟩ | ⟨⟨packet, hp, ha⟩, -⟩
  · exact (h no _ hd).2 _ rfl
  · exact (ha.topByte_iff.mpr (hP packet hp _ _ ha)).symm

lemma Sorted.effect (h : ctx.Sorted) (hP : ∀ packet, P packet → ∀ socketId no, Addresses packet socketId no → OneByte packet)
    (he : Effect P ctx ctx') : ctx'.Sorted := by
  intro no entry' hno
  cases he.origin hno with
  | @old entry htab hid =>
    refine ⟨(h no entry htab).1, fun id hsome => ?_⟩
    rcases hid with hid | hid
    · rw [hid] at hsome
      cases hsome
    · exact (h no entry htab).2 id (hid ▸ hsome)
  | @init packet hp ha hid =>
    have htop : socketIdInitMessage = topByte no := ha.topByte_iff.mpr (hP packet hp _ _ ha)
    refine ⟨htop ▸ Nat.zero_le _, fun id hsome => ?_⟩
    rcases hid with hid | hid
    · rw [hid] at hsome
      cases hsome
    · rw [hid, Option.some_inj] at hsome
      exact htop.symm.trans hsome
  | reply hk hno hid =>
    have htop : topByte no = 1 := by rw [hno, topByte_add, topByte_eq, Nat.div_eq_of_lt hk]
    refine ⟨htop ▸ by decide, fun id hsome => ?_⟩
    rw [hid, Option.some_inj] at hsome
    exact htop.trans hsome
  | @confirm k hk hno hid =>
    have htop : topByte no = 2 := by rw [hno, topByte_add, topByte_add, h.awaitsInit hP hk]
    refine ⟨htop ▸ by decide, fun id hsome => ?_⟩
    rw [hid, Option.some_inj] at hsome
    exact htop.trans hsome

/-- The packets whose socket id, where it is a reserved one, takes one byte. -/
def Short (packet : Bytes) : Prop := ∀ socketId no, Addresses packet socketId no → OneByte packet

lemma Served.sorted (h : Served Short ctx) : ctx.Sorted := by
  refine h.invariant (fun ctx hnew no entry hno => ?_) fun ctx ctx' hctx he => hctx.effect (fun _ hp => hp) he
  rw [hnew.table] at hno
  cases hno

lemma recvFragment_addresses {packet message : Bytes} {pending : Pending C}
    (h : (recvFragment ctx packet : Outcome Empty _) = .ok (.message no pending message, ctx')) :
    ∃ socketId, Addresses packet socketId no := by
  have hfound := recvFragment_found h
  cases hfound with
  | whole ha _ => exact ⟨_, ha⟩
  | completed ha _ _ => exact ⟨_, ha⟩

/-- The socket id read from a packet is the top byte of the handshake number read from it exactly where
it takes one byte. If that holds of every packet, the top byte of each key says what its entry waits for.
In any case the numbers counted from a received one do not overflow. -/
theorem key_space_iff :
    (∀ packet socketId no, Addresses packet socketId no → (socketId = topByte no ↔ OneByte packet)) ∧
      (∀ ctx : Context C, Served Short ctx → ∀ no entry, ctx.handshakeTable no = some entry →
        topByte no ≤ socketIdConfirmMessage ∧ ∀ id, entry.socketId = some id → topByte no = id) ∧
      ∀ (ctx : Context C) packet no pending message ctx',
        (recvFragment ctx packet : Outcome Empty _) = .ok (.message no pending message, ctx') →
          no + handshakeNoSocketIdInc + handshakeNoSocketIdInc < 2 ^ 128 := by
  refine ⟨fun _ _ _ h => h.topByte_iff, fun _ h => h.sorted, fun ctx packet no pending message ctx' h => ?_⟩
  obtain ⟨socketId, ha⟩ := recvFragment_addresses h
  exact ha.add_lt

/-- The first half of a message of two bytes. -/
def half : Desegmenter := ⟨some [7, 0], 2, 1, [1#64], [(0, 1)]⟩

lemma addresses_initFragment : Addresses (initFragment 2 0 [7]) socketIdInitMessage 0 :=
  ⟨⟨1, by rfl⟩, by decide, by decide, by decide⟩

lemma served_initFragment : Served Short (fresh.setEntry 0 (.responderRecv half)) := by
  have hrecv : (recv fresh quiet (initFragment 2 0 [7]) : Outcome Empty _) =
      .ok (fresh.setEntry 0 (.responderRecv half)) := by rfl
  refine ⟨fresh, fresh_new, .single (.received (fun _ _ _ => ⟨0, rfl, by decide⟩) hrecv)⟩

theorem key_space_initFragment : (socketIdInitMessage = topByte 0 ↔ OneByte (initFragment 2 0 [7])) ∧
    (∀ no entry, (fresh.setEntry 0 (.responderRecv half)).handshakeTable no = some entry →
      topByte no ≤ socketIdConfirmMessage ∧ ∀ id, entry.socketId = some id → topByte no = id) :=
  ⟨(key_space_iff (C := plain fun _ => Arr.zeros)).1 _ _ _ addresses_initFragment,
    key_space_iff.2.1 _ served_initFragment⟩

/-- The socket id 0 in two bytes, and then half a message. -/
def wideFragment : Bytes := 0x40 :: (List.replicate 15 0 ++ [2, 0, 7])

theorem two_byte_socket_id :
    fresh.New ∧ Addresses wideFragment socketIdInitMessage (0x40 <<< 120) ∧ topByte (0x40 <<< 120) = 0x40 ∧
      (recv fresh quiet wideFragment : Outcome Empty _) = .ok (fresh.setEntry (0x40 <<< 120) (.responderRecv half)) := by
  refine ⟨fresh_new, ⟨⟨2, by rfl⟩, by decide, by decide, by decide⟩, by decide, by rfl⟩

end Context

end Pqsnet.Session
