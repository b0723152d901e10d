import Pqsnet.Transport.Authentication
import Pqsnet.Transport.Honest

/-! Which messages a party can process without a panic. -/

namespace Pqsnet.Transport

open Checked Outcome KeyBundle

variable {C : CryptoAndMem}

/-- The plaintext is long enough for every field that `AuthenticBundle.authenticate` goes on to read
from it, up to the end of the signature behind the extensions. -/
def BundleFits (C : CryptoAndMem) (p : Bytes) (secs : UInt64) : Prop :=
  p ≠ [] ∧ (p.head? = some versionValue → extensionsStart ≤ p.length ∧
    ∀ (d : BundleHead) (rest : Bytes), p = d.bytes ++ rest → d.notBefore ≤ secs → secs ≤ d.notAfter →
      (C.decode d.offlineKey).isSome → d.extensionsLen.toNat + offlineSignLen ≤ rest.length)

namespace AuthenticBundle

lemma returns_authenticateBody (d : BundleHead) (k : C.PublicKey) (rest : Bytes) (alloc : C.BundleAlloc) :
    Returns (authenticateBody d k rest alloc) ↔ d.extensionsLen.toNat + offlineSignLen ≤ rest.length := by
  by_cases hr : d.extensionsLen.toNat + offlineSignLen ≤ rest.length
  · obtain ⟨ext, sign, suffix, he, rfl⟩ := exists_body hr
    rw [authenticateBody_append d k sign suffix alloc he]
    refine iff_of_true ?_ hr
    split
    · exact returns_err _
    · exact returns_bind.mpr ⟨returns_okOr _ _, fun _ _ =>
        returns_bind.mpr ⟨returns_okOr _ _, fun _ _ => returns_ok _⟩⟩
  · rw [authenticateBody_truncated d k alloc (by omega)]
    exact iff_of_false (not_returns_panic _) hr

lemma returns_authenticate_head (d : BundleHead) (rest : Bytes) (secs : UInt64) (alloc : C.BundleAlloc) :
    Returns (authenticate (d.bytes ++ rest) secs alloc) ↔ (d.version = versionValue → d.notBefore ≤ secs →
      secs ≤ d.notAfter → (C.decode d.offlineKey).isSome → d.extensionsLen.toNat + offlineSignLen ≤ rest.length) := by
  rw [authenticate_head]
  split
  · rename_i hv
    exact iff_of_true (returns_err _) fun h => absurd h hv
  split
  · rename_i hb
    exact iff_of_true (returns_err _) fun _ h => absurd hb (UInt64.not_lt.mpr h)
  split
  · rename_i ha
    exact iff_of_true (returns_err _) fun _ _ h => absurd ha (UInt64.not_lt.mpr h)
  rename_i hv hb ha
  rw [returns_bind]
  cases C.decode d.offlineKey with
  | none => exact iff_of_true ⟨returns_okOr _ _, fun a h => by simp at h⟩ fun _ _ _ h => by simp at h
  | some k =>
    constructor
    · rintro ⟨_, h⟩ _ _ _ _
      exact (returns_authenticateBody d k rest alloc).mp (h k (okOr_some _ _))
    · intro h
      have hl := h (not_not.mp hv) (UInt64.not_lt.mp hb) (UInt64.not_lt.mp ha) rfl
      refine ⟨returns_okOr _ _, fun k' _ => (returns_authenticateBody d k' rest alloc).mpr hl⟩

lemma returns_authenticate (p : Bytes) (secs : UInt64) (alloc : C.BundleAlloc) :
    Returns (authenticate p secs alloc) ↔ BundleFits C p secs := by
  by_cases hl : extensionsStart ≤ p.length
  · obtain ⟨d, rest, rfl⟩ := BundleHead.exists_bytes hl
    constructor
    · intro h
      refine ⟨fun hn => by simp [hn] at hl, fun hv => ⟨hl, fun d' rest' he => ?_⟩⟩
      rw [he] at h hv
      exact (returns_authenticate_head d' rest' secs alloc).mp h (Option.some.inj hv)
    · rintro ⟨_, h⟩
      refine (returns_authenticate_head d rest secs alloc).mpr fun hv => ?_
      exact (h (congrArg some hv)).2 d rest rfl
  · rw [authenticate_short secs alloc (by omega)]
    cases p with
    | nil => exact iff_of_false (not_returns_panic _) fun h => h.1 rfl
    | cons v p =>
      dsimp only
      split
      · rename_i hv
        exact iff_of_true (returns_err _) ⟨List.cons_ne_nil v p, fun h => absurd (Option.some.inj h) hv⟩
      · rename_i hv
        exact iff_of_false (not_returns_panic _) fun h => hl (h.2 (congrArg some (not_not.mp hv))).1

end AuthenticBundle

namespace ReplyState

lemma returns_processInitialize (seed : C.Seed) (aad m : Bytes) (sk : SecretBundle C)
    (resumption : Option (Resumption C)) (secs : UInt64) (alloc : C.MessageAlloc) (createPayload : Unit → Bytes) :
    Returns (processInitialize seed aad m sk resumption secs alloc createPayload) := by
  refine returns_bind.mpr ⟨returns_decodeInitialize m resumption, fun init _ => ?_⟩
  rw [encodeReply_eq]
  refine returns_bind.mpr ⟨returns_okOr _ _, fun _ _ => ?_⟩
  cases init.resume with
  | none => exact returns_ok _
  | some _ => exact returns_ok _

lemma returns_confirmTail (self : ReplyState C) (t : Tail) (secs : UInt64) (alloc : C.BundleAlloc) :
    Returns (self.confirmTail t secs alloc) ↔ ((self.symmetric.openBox 6 t.payload t.payloadTag).2 = true →
      BundleFits C (self.symmetric.openBox 6 t.payload t.payloadTag).1 secs) := by
  rw [confirmTail]
  split
  · rename_i hbox
    rw [returns_bind, returns_mapErr, AuthenticBundle.returns_authenticate]
    refine ⟨fun h _ => h.1, fun h => ⟨h hbox, fun b _ => ?_⟩⟩
    split
    · exact returns_err _
    split
    · exact returns_err _
    split
    · exact returns_bind.mpr ⟨returns_mapErr.mpr (AuthenticBundle.returns_verify _ _ _ _ _),
        fun _ _ => returns_ok _⟩
    · exact returns_err _
  · rename_i hbox
    exact iff_of_true (returns_err _) fun h => absurd h hbox

lemma returns_processConfirm (self : ReplyState C) (m : Bytes) (secs : UInt64) (alloc : C.BundleAlloc) :
    Returns (self.processConfirm m secs alloc) ↔ ∀ t : Tail, m = t.bytes →
      (self.symmetric.openBox 6 t.payload t.payloadTag).2 = true →
      BundleFits C (self.symmetric.openBox 6 t.payload t.payloadTag).1 secs := by
  by_cases hl : m.length < Confirm.payloadStart + payloadRevStart
  · rw [processConfirm, if_pos hl]
    refine iff_of_true (returns_err _) fun t ht => ?_
    simp [ht] at hl
  · obtain ⟨t, rfl⟩ := Tail.exists_bytes (b := m) (by simpa using hl)
    rw [processConfirm_tail, returns_confirmTail]
    refine ⟨fun h t' ht => ?_, fun h => h t rfl⟩
    rw [← Tail.bytes_inj ht]
    exact h

end ReplyState

namespace InitState

lemma returns_replyBundle (self : InitState C) (ty : UInt8) (p : Bytes) (secs : UInt64) (alloc : C.BundleAlloc) :
    Returns (self.replyBundle ty p secs alloc) ↔ (ty ≠ Reply.handshakeTypeResume → BundleFits C p secs) := by
  rw [replyBundle]
  split
  · rename_i hty
    rw [returns_bind, returns_mapErr, AuthenticBundle.returns_authenticate]
    refine ⟨fun h _ => h.1, fun h => ⟨h hty, fun b _ => ?_⟩⟩
    split
    · exact returns_err _
    split
    · split
      · exact returns_err _
      · exact returns_ok _
    · exact returns_ok _
  · rename_i hty
    refine iff_of_true ?_ fun h => absurd h hty
    split
    · exact returns_ok _
    · exact returns_err _

/-- The plaintext of the reply, for a reply that gets as far as being decrypted. -/
def ReplyFits (self : InitState C) (ty : UInt8) (ct : Arr Mlkem1024.ciphertextLen) (t : Tail) (secs : UInt64) :
    Prop :=
  ∀ s₀ ss, self.selectSymmetric ty = .ok s₀ → C.decapsulate self.decapsulationKey ct = some ss →
    let box := ((s₀.mix 2 (ty :: ct.bytes)).mix 3 ss.bytes).openBox 4 t.payload t.payloadTag
    box.2 = true → ty ≠ Reply.handshakeTypeResume → BundleFits C box.1 secs

lemma returns_selectSymmetric (self : InitState C) (ty : UInt8) : Returns (self.selectSymmetric ty) := by
  rw [selectSymmetric]
  split
  · exact returns_err _
  split
  · exact returns_okOr _ _
  · exact returns_ok _

lemma returns_replyTail (self : InitState C) (ty : UInt8) (ct : Arr Mlkem1024.ciphertextLen) (t : Tail)
    (secs : UInt64) (ba : C.BundleAlloc) (ma : C.MessageAlloc) :
    Returns (self.replyTail ty ct t secs ba ma) ↔ self.ReplyFits ty ct t secs := by
  rw [replyTail, returns_bind, and_iff_right (self.returns_selectSymmetric ty)]
  constructor
  · intro h s₀ ss hsel hss box hbox hty
    have hr := (returns_bind.mp (h s₀ hsel)).2 ss (okOr_eq_ok.mpr hss)
    dsimp only at hr
    rw [if_pos hbox] at hr
    exact (self.returns_replyBundle ty _ secs ba).mp (returns_bind.mp hr).1 hty
  · intro h s₀ hsel
    refine returns_bind.mpr ⟨returns_okOr _ _, fun ss hss => ?_⟩
    have hf := h s₀ ss hsel (okOr_eq_ok.mp hss)
    dsimp only
    split
    · rename_i hbox
      refine returns_bind.mpr ⟨(self.returns_replyBundle ty _ secs ba).mpr (hf hbox), fun r _ => ?_⟩
      split
      · refine returns_bind.mpr ⟨returns_mapErr.mpr (AuthenticBundle.returns_verify _ _ _ _ _), fun _ _ => ?_⟩
        split
        · exact returns_ok _
        · rw [encodeConfirm_eq _ _ _ _ _ rfl]
          exact returns_bind.mpr ⟨returns_okOr _ _, fun _ _ => returns_ok _⟩
      · exact returns_err _
    · exact returns_err _

lemma returns_processReply (self : InitState C) (m : Bytes) (secs : UInt64) (ba : C.BundleAlloc)
    (ma : C.MessageAlloc) : Returns (self.processReply m secs ba ma) ↔
      ∀ ty ct t, m = (ty :: ct.bytes) ++ t.bytes → self.ReplyFits ty ct t secs := by
  by_cases hl : m.length < Reply.payloadStart + payloadRevStart
  · rw [processReply, if_pos hl]
    refine iff_of_true (returns_err _) fun ty ct t ht => ?_
    simp [ht] at hl
    omega
  · obtain ⟨ty, ct, t, rfl⟩ := exists_reply hl
    rw [processReply_tail, returns_replyTail]
    refine ⟨fun h ty' ct' t' ht => ?_, fun h => h ty ct t rfl⟩
    obtain ⟨hhead, htail⟩ := List.append_inj ht (by simp)
    obtain ⟨rfl, hct⟩ := List.cons.inj hhead
    rw [← Arr.bytes_inj.mp hct, ← Tail.bytes_inj htail]
    exact h

end InitState

theorem processing_returns_iff (C : CryptoAndMem) :
    (∀ (seed : C.Seed) (aad m : Bytes) (sk : SecretBundle C) (resumption : Option (Resumption C))
        (secs : UInt64) (alloc : C.MessageAlloc) (createPayload : Unit → Bytes),
      Returns (ReplyState.processInitialize seed aad m sk resumption secs alloc createPayload)) ∧
    (∀ (self : InitState C) (m : Bytes) (secs : UInt64) (ba : C.BundleAlloc) (ma : C.MessageAlloc),
      Returns (self.processReply m secs ba ma) ↔
        ∀ ty ct t, m = (ty :: ct.bytes) ++ t.bytes → self.ReplyFits ty ct t secs) ∧
    (∀ (self : ReplyState C) (m : Bytes) (secs : UInt64) (ba : C.BundleAlloc),
      Returns (self.processConfirm m secs ba) ↔
        ∀ t : Tail, m = t.bytes → (self.symmetric.openBox 6 t.payload t.payloadTag).2 = true →
          BundleFits C (self.symmetric.openBox 6 t.payload t.payloadTag).1 secs) :=
  ⟨ReplyState.returns_processInitialize, InitState.returns_processReply, ReplyState.returns_processConfirm⟩

/-- A peer that seals an empty plaintext, though it holds all the keys, stops the responder. -/
lemma ReplyState.processConfirm_empty (hC : C.Correct) (self : ReplyState C) (sk : SecretBundle C)
    (secs : UInt64) (alloc : C.BundleAlloc) :
    self.processConfirm (self.symmetric.sealTail 6 7 sk []).2 secs alloc = panic .index := by
  obtain ⟨t, ht, hbox, _, _⟩ := self.symmetric.exists_sealed hC 6 7 sk []
  have ha : AuthenticBundle.authenticate [] secs alloc = panic .index :=
    AuthenticBundle.authenticate_short secs alloc (by simp)
  rw [ht, processConfirm_tail, confirmTail]
  simp only [hbox, ↓reduceIte, ha, mapErr_panic, panic_bind]

theorem confirm_panics_on_empty_plaintext :
    let state : ReplyState (plain fun _ => Arr.zeros) := ⟨SymmetricState.salted, none, false⟩
    let m := (state.symmetric.sealTail 6 7 (plain.bundle _) []).2
    m.length = payloadRevStart ∧ state.processConfirm m 5 () = panic .index := by
  refine ⟨SymmetricState.sealTail_length _ _ _ _ _, ?_⟩
  exact ReplyState.processConfirm_empty (plain.correct _) _ _ 5 ()

end Pqsnet.Transport
