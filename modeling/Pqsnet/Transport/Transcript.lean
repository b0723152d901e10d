import Pqsnet.Checked.HashChain
import Pqsnet.Transport.Authentication
import Pqsnet.Transport.Honest

/-! The symmetric state as a hash chain over the messages of a handshake. -/

namespace Pqsnet.Transport

open Checked Outcome

variable {C : CryptoAndMem}

/-- A step number and the data mixed in at that step. -/
abbrev Entry := UInt8 × Bytes

def chain (C : CryptoAndMem) :
    HashChain (SymmetricState C) (Arr Shake256.collisionResistanceNist5Len) Entry Bytes where
  link := SymmetricState.chainingKey
  input k e := k.bytes ++ (e.1 :: e.2)
  hash x := ⟨C.xof x shake256HandshakeOutputLen⟩
  input_inj := by
    intro k k' e e' h
    obtain ⟨hk, he⟩ := List.append_inj h (by simp)
    obtain ⟨h₁, h₂⟩ := List.cons.inj he
    exact ⟨Arr.ext hk, Prod.ext h₁ h₂⟩

lemma mix_eq (s : SymmetricState C) (a : UInt8) (data : Bytes) : s.mix a data = (chain C).absorb s (a, data) := by
  simp only [SymmetricState.mix, SymmetricState.hash3, Xof.finish, Xof.update, Xof.new, chain, HashChain.absorb,
    List.nil_append, List.append_assoc, List.singleton_append]

lemma split_eq (s : SymmetricState C) (a : UInt8) :
    s.split a = C.xof ((chain C).input ((chain C).link s) (a, [])) shake256SplitOutputLen := by
  simp only [SymmetricState.split, SymmetricState.hash3, Xof.finish, Xof.update, Xof.new, chain,
    List.nil_append, List.append_assoc, List.singleton_append]

/-- The two boxes at the end of a message. -/
def tailEntries (a b : UInt8) (tail : Bytes) : List Entry :=
  [(a, tail.take (tail.length - payloadTagRevStart)), (b, tail.drop (tail.length - payloadTagRevStart))]

lemma tailEntries_append (a b : UInt8) {box sign : Bytes} (h : sign.length = payloadTagRevStart) :
    tailEntries a b (box ++ sign) = [(a, box), (b, sign)] := by
  have hn : (box ++ sign).length - payloadTagRevStart = box.length := by
    rw [List.length_append, h, Nat.add_sub_cancel]
  rw [tailEntries, hn, List.take_left' rfl, List.drop_left' rfl]

lemma tailEntries_bytes (a b : UInt8) (t : Tail) :
    tailEntries a b t.bytes = [(a, t.payloadBox), (b, t.signBox)] :=
  tailEntries_append a b (by simp)

lemma tailEntries_inj {a b : UInt8} {x y : Bytes} (h : tailEntries a b x = tailEntries a b y) : x = y := by
  simp only [tailEntries, List.cons.injEq, Prod.mk.injEq, true_and, and_true] at h
  rw [← List.take_append_drop (x.length - payloadTagRevStart) x, h.1, h.2, List.take_append_drop]

lemma replay_tail (s : SymmetricState C) (a b : UInt8) (t : Tail) :
    (s.mix a t.payloadBox).mix b t.signBox = (chain C).replay s (tailEntries a b t.bytes) := by
  rw [tailEntries_bytes, mix_eq, mix_eq]
  rfl

lemma replay_sealTail (s : SymmetricState C) (a b : UInt8) (sk : SecretBundle C) (p : Bytes) :
    (s.sealTail a b sk p).1 = (chain C).replay s (tailEntries a b (s.sealTail a b sk p).2) := by
  simp only [SymmetricState.sealTail]
  rw [tailEntries_append a b (by simp), mix_eq, mix_eq]
  rfl

/-- The initialize message, under the resumption key if one is used. -/
def initEntries (aad initMessage : Bytes) (key : Option ResumptionKey) : List Entry :=
  (0, aad) ::
    if initMessage.length < Initialize.resumptionTokenEnd then [(1, initMessage)]
    else (9, initMessage.take Initialize.resumptionTokenEnd) ::
      match key with
      | none => [(14, initMessage.drop Initialize.resumptionTokenEnd)]
      | some key => (10, key.bytes) :: tailEntries 11 12 (initMessage.drop Initialize.resumptionTokenEnd)

lemma initEntries_full (aad : Bytes) {m : Bytes} (k : Option ResumptionKey)
    (h : m.length < Initialize.resumptionTokenEnd) : initEntries aad m k = [(0, aad), (1, m)] := by
  simp only [initEntries, h, ↓reduceIte]

lemma initEntries_token (aad : Bytes) (ek : Arr Mlkem1024.encapsulationKeyLen) (token : ResumptionToken)
    (rest : Bytes) (k : Option ResumptionKey) : initEntries aad (ek.bytes ++ (token.bytes ++ rest)) k =
      (0, aad) :: (9, ek.bytes ++ token.bytes) ::
        match k with
        | none => [(14, rest)]
        | some key => (10, key.bytes) :: tailEntries 11 12 rest := by
  have hl : (ek.bytes ++ token.bytes).length = Initialize.resumptionTokenEnd := by simp
  have hn : ¬ (ek.bytes ++ (token.bytes ++ rest)).length < Initialize.resumptionTokenEnd := by
    rw [← List.append_assoc, List.length_append, hl]
    omega
  simp only [initEntries, hn, ↓reduceIte]
  rw [← List.append_assoc, List.take_left' hl, List.drop_left' hl]

def replyEntries (replyMessage sharedSecret : Bytes) : List Entry :=
  (2, replyMessage.take Reply.ephemeralCiphertextEnd) :: (3, sharedSecret) ::
    tailEntries 4 5 (replyMessage.drop Reply.ephemeralCiphertextEnd)

def confirmEntries (confirmMessage : Option Bytes) : List Entry :=
  match confirmMessage with
  | none => []
  | some m => tailEntries 6 7 m

/-- All that is mixed in during one handshake. -/
def transcript (aad initMessage : Bytes) (key : Option ResumptionKey) (replyMessage sharedSecret : Bytes)
    (confirmMessage : Option Bytes) : List Entry :=
  initEntries aad initMessage key ++ (replyEntries replyMessage sharedSecret ++ confirmEntries confirmMessage)

lemma confirmEntries_inj {m m' : Option Bytes} (h : confirmEntries m = confirmEntries m') : m = m' := by
  cases m with
  | none =>
    cases m' with
    | none => rfl
    | some m' => simp [confirmEntries, tailEntries] at h
  | some m =>
    cases m' with
    | none => simp [confirmEntries, tailEntries] at h
    | some m' => exact congrArg some (tailEntries_inj h)

lemma replyEntries_inj {r r' s s' : Bytes} {es es' : List Entry}
    (h : replyEntries r s ++ es = replyEntries r' s' ++ es') : r = r' ∧ s = s' ∧ es = es' := by
  obtain ⟨h, hes⟩ := List.append_inj h (by simp [replyEntries, tailEntries])
  simp only [replyEntries, List.cons.injEq, Prod.mk.injEq, true_and] at h
  obtain ⟨h₁, h₂, h₃⟩ := h
  refine ⟨?_, h₂, hes⟩
  rw [← List.take_append_drop Reply.ephemeralCiphertextEnd r, h₁, tailEntries_inj h₃, List.take_append_drop]

lemma initEntries_cases (aad m : Bytes) (k : Option ResumptionKey) :
    initEntries aad m k = [(0, aad), (1, m)] ∨
    (∃ x y, m = x ++ y ∧ initEntries aad m k = [(0, aad), (9, x), (14, y)]) ∨
    ∃ x y z key, m = x ++ (y ++ z) ∧ initEntries aad m k = [(0, aad), (9, x), (10, key), (11, y), (12, z)] := by
  by_cases hl : m.length < Initialize.resumptionTokenEnd
  · exact .inl (initEntries_full aad k hl)
  · simp only [initEntries, hl, ↓reduceIte]
    cases k with
    | none => exact .inr (.inl ⟨_, _, (List.take_append_drop _ m).symm, rfl⟩)
    | some k =>
      refine .inr (.inr ⟨m.take Initialize.resumptionTokenEnd, _, _, k.bytes, ?_, rfl⟩)
      rw [List.take_append_drop, List.take_append_drop]

lemma initEntries_inj {aad aad' m m' : Bytes} {k k' : Option ResumptionKey} {r s r' s' : Bytes}
    {es es' : List Entry}
    (h : initEntries aad m k ++ (replyEntries r s ++ es) = initEntries aad' m' k' ++ (replyEntries r' s' ++ es')) :
    aad = aad' ∧ m = m' ∧ replyEntries r s ++ es = replyEntries r' s' ++ es' := by
  obtain ⟨a, as, ha⟩ : ∃ a as, replyEntries r s ++ es = (2, a) :: as := ⟨_, _, rfl⟩
  obtain ⟨b, bs, hb⟩ : ∃ b bs, replyEntries r' s' ++ es' = (2, b) :: bs := ⟨_, _, rfl⟩
  rw [ha, hb] at h ⊢
  rcases initEntries_cases aad m k with he | ⟨x, y, rfl, he⟩ | ⟨x, y, z, key, rfl, he⟩ <;>
    rcases initEntries_cases aad' m' k' with he' | ⟨x', y', rfl, he'⟩ | ⟨x', y', z', key', rfl, he'⟩ <;>
    simp [he, he'] at h
  · obtain ⟨rfl, rfl, rfl, rfl⟩ := h
    exact ⟨rfl, rfl, rfl⟩
  · obtain ⟨rfl, rfl, rfl, rfl, rfl⟩ := h
    exact ⟨rfl, rfl, rfl⟩
  · obtain ⟨rfl, rfl, _, rfl, rfl, rfl, rfl⟩ := h
    exact ⟨rfl, rfl, rfl⟩

lemma transcript_inj {aad aad' m m' : Bytes} {k k' : Option ResumptionKey} {r s r' s' : Bytes}
    {c c' : Option Bytes} (h : transcript aad m k r s c = transcript aad' m' k' r' s' c') :
    aad = aad' ∧ m = m' ∧ r = r' ∧ s = s' ∧ c = c' := by
  obtain ⟨haad, hm, h⟩ := initEntries_inj h
  obtain ⟨hr, hs, h⟩ := replyEntries_inj h
  exact ⟨haad, hm, hr, hs, confirmEntries_inj h⟩

lemma transcript_cons (aad m : Bytes) (k : Option ResumptionKey) (r s : Bytes) (c : Option Bytes) :
    ∃ es, transcript aad m k r s c = (0, aad) :: es ∧ ∀ e ∈ es, e.1 ≠ 0 := by
  rcases initEntries_cases aad m k with he | ⟨x, y, _, he⟩ | ⟨x, y, z, key, _, he⟩ <;> cases c <;>
    exact ⟨_, by simp only [transcript, he]; rfl, by simp [replyEntries, confirmEntries, tailEntries]⟩

/-- No two of the inputs agree in the first 64 bytes that the function gives for them. -/
def CryptoAndMem.CollisionFree (C : CryptoAndMem) (inputs : List Bytes) : Prop :=
  ∀ x ∈ inputs, ∀ y ∈ inputs, ∀ n k, 64 ≤ n → 64 ≤ k →
    (C.xof x n).bytes.take 64 = (C.xof y k).bytes.take 64 → x = y

def splitStep (confirmMessage : Option Bytes) : UInt8 :=
  match confirmMessage with
  | none => 13
  | some _ => 8

/-- The keys that a handshake with this transcript ends with, and all that is hashed on the way. -/
def splitKeys (C : CryptoAndMem) (es : List Entry) (step : UInt8) : SymmetricKeys :=
  ((chain C).replay SymmetricState.salted es).split step

def hashed (C : CryptoAndMem) (es : List Entry) (step : UInt8) : List Bytes :=
  (chain C).inputs SymmetricState.salted (es ++ [(step, [])])

lemma CryptoAndMem.CollisionFree.chain {inputs : List Bytes} (h : C.CollisionFree inputs) :
    (chain C).CollisionFree (· ∈ inputs) := by
  intro x y hx hy hl
  exact h x hx y hy _ _ (by decide) (by decide) (congrArg Arr.bytes hl)

lemma transcript_eq_of_keys {es fs : List Entry} {a b : UInt8} {aad aad' : Bytes}
    (h : C.CollisionFree (hashed C ((0, aad) :: es) a ++ hashed C ((0, aad') :: fs) b))
    (hes : ∀ e ∈ es, e.1 ≠ 0) (hfs : ∀ e ∈ fs, e.1 ≠ 0)
    (hk : splitKeys C ((0, aad) :: es) a = splitKeys C ((0, aad') :: fs) b) :
    (0, aad) :: es = (0, aad') :: fs := by
  have hc := h.chain
  have hlast : ∀ (gs : List Entry) (c : UInt8), hashed C gs c = (chain C).inputs SymmetricState.salted gs ++
      [(chain C).input ((chain C).link ((chain C).replay SymmetricState.salted gs)) (c, [])] := by
    intro gs c
    rw [hashed, HashChain.inputs_append]
    rfl
  simp only [hlast, List.mem_append, List.mem_singleton] at hc
  rw [splitKeys, splitKeys, split_eq, split_eq] at hk
  have hx := h _ (by simp [hlast]) _ (by simp [hlast]) _ _ (by decide) (by decide)
    (congrArg (fun k => k.bytes.take 64) hk)
  exact HashChain.eq_of_link_eq hc SymmetricState.salted (fun e => e.1 = 0) ⟨rfl, rfl⟩ hes hfs
    (fun x hx => .inl (.inl hx)) (fun x hx => .inr (.inl hx)) ((chain C).input_inj hx).1

lemma messages_eq_of_keys {aad aad' m m' : Bytes} {k k' : Option ResumptionKey} {r s r' s' : Bytes}
    {c c' : Option Bytes} {a b : UInt8}
    (h : C.CollisionFree (hashed C (transcript aad m k r s c) a ++ hashed C (transcript aad' m' k' r' s' c') b))
    (hk : splitKeys C (transcript aad m k r s c) a = splitKeys C (transcript aad' m' k' r' s' c') b) :
    aad = aad' ∧ m = m' ∧ r = r' ∧ s = s' ∧ c = c' := by
  suffices hT : transcript aad m k r s c = transcript aad' m' k' r' s' c' from transcript_inj hT
  obtain ⟨es, hes, hes₀⟩ := transcript_cons aad m k r s c
  obtain ⟨fs, hfs, hfs₀⟩ := transcript_cons aad' m' k' r' s' c'
  rw [hes, hfs] at h hk ⊢
  exact transcript_eq_of_keys h hes₀ hfs₀ hk

lemma replay_reply (s : SymmetricState C) (ty : UInt8) (ct : Arr Mlkem1024.ciphertextLen) {tail : Bytes}
    (ss : Bytes) : (chain C).replay s (replyEntries ((ty :: ct.bytes) ++ tail) ss) =
      (chain C).replay ((s.mix 2 (ty :: ct.bytes)).mix 3 ss) (tailEntries 4 5 tail) := by
  have hl : (ty :: ct.bytes).length = Reply.ephemeralCiphertextEnd := by simp
  rw [replyEntries, List.take_left' hl, List.drop_left' hl, mix_eq, mix_eq]
  rfl

lemma replay_transcript (aad m : Bytes) (k : Option ResumptionKey) (r s : Bytes) (c : Option Bytes) :
    (chain C).replay SymmetricState.salted (transcript aad m k r s c) =
      (chain C).replay ((chain C).replay ((chain C).replay SymmetricState.salted (initEntries aad m k))
        (replyEntries r s)) (confirmEntries c) := by
  rw [transcript, HashChain.replay_append, HashChain.replay_append]

end Pqsnet.Transport
