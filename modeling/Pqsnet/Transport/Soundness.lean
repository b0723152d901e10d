import Pqsnet.Transport.Authentication
import Pqsnet.Transport.Honest

/-! What a completed handshake guarantees, whatever bytes the peer sent. -/

namespace Pqsnet.Transport

open Checked Outcome

variable {C : CryptoAndMem}

namespace ReplyState

variable {seed : C.Seed} {aad m : Bytes} {sk : SecretBundle C} {resumption : Option (Resumption C)}
  {secs : UInt64} {alloc : C.MessageAlloc} {createPayload : Unit → Bytes}

lemma complete_authenticated {hc : HandshakeComplete C}
    (h : processInitialize seed aad m sk resumption secs alloc createPayload = .ok (.complete hc)) :
    ∃ (ek : Arr Mlkem1024.encapsulationKeyLen) (r : Resumption C) (t : Tail),
      resumption = some r ∧ m = ek.bytes ++ (r.token.bytes ++ t.bytes) ∧
      hc.remoteKeyBundle = r.remoteKeyBundle ∧
      Authenticated (((SymmetricState.new aad).mix 9 (ek.bytes ++ r.token.bytes)).mix 10 r.key.bytes) 11 12 t
        hc.remoteKeyBundle secs := by
  obtain ⟨init, ha, hr⟩ := processInitialize_inv h
  cases hr with
  | complete b p hres =>
    cases ha with
    | full ek e he => simp at hres
    | fallback ek token rest e he => simp at hres
    | resumption ek r t e init he ht hi =>
      obtain ⟨ty, resume, rfl, ⟨_, rfl⟩ | ⟨_, ⟨p', rfl⟩, hauth⟩⟩ := resumptionTail_inv hi
      · simp at hres
      · cases hres
        exact ⟨ek, r, t, rfl, rfl, rfl, hauth⟩

lemma incomplete_pinned {r : Resumption C} {replyMessage : Bytes} {state : ReplyState C}
    (h : processInitialize seed aad m sk (some r) secs alloc createPayload =
      .ok (.incomplete replyMessage state)) :
    state.remoteOfflineHash = some r.remoteKeyBundle.offlineHash := by
  obtain ⟨init, ha, hr⟩ := processInitialize_inv h
  cases hr with
  | incomplete hres =>
    cases ha with
    | resumption ek r t e init he ht hi =>
      obtain ⟨ty, resume, rfl, _⟩ := resumptionTail_inv hi
      rfl

lemma incomplete_storage {replyMessage : Bytes} {state : ReplyState C}
    (h : processInitialize seed aad m sk none secs alloc createPayload =
      .ok (.incomplete replyMessage state)) (hm : Initialize.resumptionTokenEnd ≤ m.length) :
    state.rejectIfRemoteHasReliableStorage =
      decide (sk.publicBundle.flags &&& KeyBundle.flagReliableStorage > 0) := by
  obtain ⟨init, ha, hr⟩ := processInitialize_inv h
  cases hr with
  | incomplete hres =>
    cases ha with
    | full ek e he => simp at hm
    | fallback ek token rest e he => simp

end ReplyState

def AuthenticBundle.HasReliableStorage (b : AuthenticBundle C) : Prop :=
  b.flags &&& KeyBundle.flagReliableStorage > 0

lemma reliableStorage_and {f g : UInt32} : f &&& g &&& KeyBundle.flagReliableStorage > 0 ↔
    f &&& KeyBundle.flagReliableStorage > 0 ∧ g &&& KeyBundle.flagReliableStorage > 0 := by
  have hn : ∀ n : ℕ, 0 < n &&& 1 ↔ n.testBit 0 = true := by
    intro n
    rw [Nat.and_one_is_mod, Nat.testBit_zero, decide_eq_true_eq]
    omega
  simp only [KeyBundle.flagReliableStorage, gt_iff_lt, UInt32.lt_iff_toNat_lt, UInt32.toNat_and,
    UInt32.toNat_zero, UInt32.toNat_one, hn, Nat.testBit_and, Bool.and_eq_true]

namespace InitState

variable {self : InitState C} {m : Bytes} {secs : UInt64} {ba : C.BundleAlloc} {ma : C.MessageAlloc}
  {hc : HandshakeComplete C}

lemma reply_pinned {b : AuthenticBundle C} (hb : self.remoteKeyBundle = some b)
    (h : self.processReply m secs ba ma = .ok hc) : hc.remoteKeyBundle.offlineHash = b.offlineHash := by
  obtain ⟨ty, ct, t, s₀, ss, s, rfl, hacc⟩ := processReply_inv h
  obtain ⟨n, hn⟩ := hacc.bundle
  rcases replyBundle_inv hn with ⟨_, _, _, _, hpin⟩ | ⟨_, hr, _⟩
  · exact (hpin b hb).symm
  · rw [hb] at hr
    rw [Option.some.inj hr]

lemma reply_fallback (hty : m.head? = some Reply.handshakeTypeFallback)
    (h : self.processReply m secs ba ma = .ok hc) : self.fallback.isSome ∧
      ¬ (self.secretKeyBundle.publicBundle.HasReliableStorage ∧ hc.remoteKeyBundle.HasReliableStorage) := by
  obtain ⟨ty, ct, t, s₀, ss, s, rfl, hacc⟩ := processReply_inv h
  obtain rfl : ty = Reply.handshakeTypeFallback := by simpa using hty
  constructor
  · have hsel := hacc.select
    rw [selectSymmetric, if_neg (by decide), if_pos rfl, okOr_eq_ok] at hsel
    rw [hsel]
    rfl
  · obtain ⟨n, hn⟩ := hacc.bundle
    rcases replyBundle_inv hn with ⟨_, _, _, hflags, _⟩ | ⟨hr, _⟩
    · rintro ⟨hl, hr⟩
      exact hflags ⟨rfl, reliableStorage_and.mpr ⟨hr, hl⟩⟩
    · exact absurd hr (by decide)

lemma reply_authenticated (h : self.processReply m secs ba ma = .ok hc) :
    ∃ ty ct t s₀ ss s, m = (ty :: ct.bytes) ++ t.bytes ∧ self.selectSymmetric ty = .ok s₀ ∧
      C.decapsulate self.decapsulationKey ct = some ss ∧ s = (s₀.mix 2 (ty :: ct.bytes)).mix 3 ss.bytes ∧
      Authenticated s 4 5 t hc.remoteKeyBundle secs ∧
      ((ty ≠ Reply.handshakeTypeResume ∧
          Certified hc.remoteKeyBundle (s.openBox 4 t.payload t.payloadTag).1) ∨
        (ty = Reply.handshakeTypeResume ∧ self.remoteKeyBundle = some hc.remoteKeyBundle)) := by
  obtain ⟨ty, ct, t, s₀, ss, s, rfl, hacc⟩ := processReply_inv h
  obtain ⟨n, hn⟩ := hacc.bundle
  refine ⟨ty, ct, t, s₀, ss, s, rfl, hacc.select, hacc.sharedSecret, hacc.state, hacc.authenticated, ?_⟩
  rcases replyBundle_inv hn with ⟨hty, hb, _⟩ | ⟨hty, hr, _⟩
  · exact .inl ⟨hty, AuthenticBundle.authenticate_certified hb⟩
  · exact .inr ⟨hty, hr⟩

end InitState

/-! Each of these runs exists: the primitives that hide nothing let an honest peer through. -/

namespace plain

variable (xof : Bytes → (n : ℕ) → Arr n)

def initiator : InitState (plain xof) :=
  ⟨SymmetricState.salted, some SymmetricState.salted, (), [1], bundle xof, some (bundle xof).publicBundle⟩

lemma reply_accepted : ∃ m hc, m.head? = some Reply.handshakeTypeFallback ∧
    (initiator xof).processReply m 5 () () = .ok hc := by
  have hty : Reply.handshakeTypeFallback ≠ Reply.handshakeTypeResume := by decide
  have hflags : ¬ ((bundle xof).publicBundle.flags &&& (initiator xof).secretKeyBundle.publicBundle.flags &&&
      KeyBundle.flagReliableStorage > 0) := by
    rw [show (initiator xof).secretKeyBundle = bundle xof from rfl, bundle_flags]
    decide
  have hpin : ∀ e, (initiator xof).remoteKeyBundle = some e →
      e.offlineHash = (bundle xof).publicBundle.offlineHash := by
    intro e he
    rw [← Option.some.inj he]
  have hsel : (initiator xof).selectSymmetric Reply.handshakeTypeFallback = .ok SymmetricState.salted := by
    rw [InitState.selectSymmetric, if_neg (by decide), if_pos rfl]
    rfl
  have hss : (plain xof).decapsulate () (Arr.zeros Mlkem1024.ciphertextLen) = some (Arr.zeros _) := rfl
  obtain ⟨b, _, h⟩ := (initiator xof).processReply_sealed (correct xof) hty (fun _ => hflags) hpin hsel hss
    (bundle_built xof) (bundle_validAt xof) [2] () () rfl rfl
  exact ⟨_, _, List.head?_cons, h⟩

lemma confirm_accepted (state : ReplyState (plain xof))
    (h : ∀ h, state.remoteOfflineHash = some h → (bundle xof).publicBundle.offlineHash = h) :
    ∃ m hc, state.processConfirm m 5 () = .ok hc := by
  have hflags : ¬ ((bundle xof).publicBundle.flags &&& KeyBundle.flagReliableStorage > 0) := by
    rw [bundle_flags]
    decide
  obtain ⟨b, _, hb⟩ := state.processConfirm_sealed (correct xof) h (fun hs => hflags hs.2)
    (bundle_built xof) (bundle_validAt xof) [2] () rfl
  exact ⟨_, _, hb⟩

lemma resume_accepted : ∃ m hc, ReplyState.processInitialize () [] m (bundle xof) (some (resumption xof)) 5 ()
    (fun _ => []) = .ok (.complete hc) := by
  obtain ⟨hc, h, _⟩ := ReplyState.processInitialize_resume (correct xof) () () [] (bundle xof) (bundle xof)
    (resumption xof) [2] () (fun _ => []) (bundle_validAt xof) (fun _ _ => rfl) rfl
  exact ⟨_, hc, h⟩

lemma outdated_accepted : ∃ m replyMessage state,
    ReplyState.processInitialize () [] m (bundle fun _ => Arr.zeros) (some (resumption fun _ => Arr.zeros)) 5 ()
      (fun _ => []) = .ok (.incomplete replyMessage state) ∧
    state.remoteOfflineHash = some (bundle fun _ => Arr.zeros).publicBundle.offlineHash := by
  let ones : Arr Initialize.keyBundleChecksumLen := ⟨List.replicate 32 1, by simp⟩
  have hones : Arr.zeros Initialize.keyBundleChecksumLen ≠ ones := by decide
  exact ⟨_, ReplyState.processInitialize_outdated (correct _) () () [] (bundle _) (bundle _) (resumption _) [2] ()
    _ hones⟩

end plain

theorem completion_authenticated (C : CryptoAndMem) :
    (∀ (seed : C.Seed) (aad m : Bytes) (sk : SecretBundle C) (resumption : Option (Resumption C))
        (secs : UInt64) (alloc : C.MessageAlloc) (createPayload : Unit → Bytes) (hc : HandshakeComplete C),
      ReplyState.processInitialize seed aad m sk resumption secs alloc createPayload = .ok (.complete hc) →
      ∃ (ek : Arr Mlkem1024.encapsulationKeyLen) (r : Resumption C) (t : Tail),
        resumption = some r ∧ m = ek.bytes ++ (r.token.bytes ++ t.bytes) ∧
        hc.remoteKeyBundle = r.remoteKeyBundle ∧
        Authenticated (((SymmetricState.new aad).mix 9 (ek.bytes ++ r.token.bytes)).mix 10 r.key.bytes) 11 12 t
          hc.remoteKeyBundle secs) ∧
    (∀ (self : InitState C) (m : Bytes) (secs : UInt64) (ba : C.BundleAlloc) (ma : C.MessageAlloc)
        (hc : HandshakeComplete C), self.processReply m secs ba ma = .ok hc →
      ∃ ty ct t s₀ ss s, m = (ty :: ct.bytes) ++ t.bytes ∧ self.selectSymmetric ty = .ok s₀ ∧
        C.decapsulate self.decapsulationKey ct = some ss ∧ s = (s₀.mix 2 (ty :: ct.bytes)).mix 3 ss.bytes ∧
        Authenticated s 4 5 t hc.remoteKeyBundle secs ∧
        ((ty ≠ Reply.handshakeTypeResume ∧
            Certified hc.remoteKeyBundle (s.openBox 4 t.payload t.payloadTag).1) ∨
          (ty = Reply.handshakeTypeResume ∧ self.remoteKeyBundle = some hc.remoteKeyBundle))) ∧
    (∀ (self : ReplyState C) (m : Bytes) (secs : UInt64) (ba : C.BundleAlloc) (hc : HandshakeComplete C),
      self.processConfirm m secs ba = .ok hc →
      ∃ t : Tail, m = t.bytes ∧ Authenticated self.symmetric 6 7 t hc.remoteKeyBundle secs ∧
        Certified hc.remoteKeyBundle (self.symmetric.openBox 6 t.payload t.payloadTag).1) := by
  refine ⟨fun _ _ _ _ _ _ _ _ _ h => ReplyState.complete_authenticated h,
    fun _ _ _ _ _ _ h => InitState.reply_authenticated h, fun _ _ _ _ _ h => ?_⟩
  obtain ⟨t, rfl, hacc⟩ := ReplyState.processConfirm_inv h
  exact ⟨t, rfl, hacc.authenticated, hacc.certified⟩

theorem completion_authenticated_plain :
    (∃ m hc s t, ReplyState.processInitialize () [] m (plain.bundle fun _ => Arr.zeros)
        (some (plain.resumption fun _ => Arr.zeros)) 5 () (fun _ => []) = .ok (.complete hc) ∧
      Authenticated s 11 12 t hc.remoteKeyBundle 5) ∧
    (∃ m hc s t, (plain.initiator fun _ => Arr.zeros).processReply m 5 () () = .ok hc ∧
      Authenticated s 4 5 t hc.remoteKeyBundle 5) ∧
    (∃ m hc t, (⟨SymmetricState.salted, none, true⟩ : ReplyState (plain fun _ => Arr.zeros)).processConfirm m 5 () =
        .ok hc ∧
      Authenticated SymmetricState.salted 6 7 t hc.remoteKeyBundle 5) := by
  have h := completion_authenticated (plain fun _ => Arr.zeros)
  refine ⟨?_, ?_, ?_⟩
  · obtain ⟨m, hc, hm⟩ := plain.resume_accepted fun _ => Arr.zeros
    obtain ⟨ek, r, t, _, _, _, ha⟩ := h.1 _ _ _ _ _ _ _ _ _ hm
    exact ⟨m, hc, _, t, hm, ha⟩
  · obtain ⟨m, hc, _, hm⟩ := plain.reply_accepted fun _ => Arr.zeros
    obtain ⟨ty, ct, t, s₀, ss, s, _, _, _, _, ha, _⟩ := h.2.1 _ _ _ _ _ _ hm
    exact ⟨m, hc, s, t, hm, ha⟩
  · obtain ⟨m, hc, hm⟩ := plain.confirm_accepted (fun _ => Arr.zeros) ⟨SymmetricState.salted, none, true⟩ nofun
    obtain ⟨t, _, ha, _⟩ := h.2.2 _ _ _ _ _ hm
    exact ⟨m, hc, t, hm, ha⟩

theorem identity_pinned_no_downgrade (C : CryptoAndMem) :
    (∀ (self : InitState C) (b : AuthenticBundle C) (m : Bytes) (secs : UInt64) (ba : C.BundleAlloc)
        (ma : C.MessageAlloc) (hc : HandshakeComplete C), self.remoteKeyBundle = some b →
      self.processReply m secs ba ma = .ok hc → hc.remoteKeyBundle.offlineHash = b.offlineHash) ∧
    (∀ (seed : C.Seed) (aad m : Bytes) (sk : SecretBundle C) (r : Resumption C) (secs : UInt64)
        (alloc : C.MessageAlloc) (createPayload : Unit → Bytes),
      (∀ hc, ReplyState.processInitialize seed aad m sk (some r) secs alloc createPayload =
          .ok (.complete hc) → hc.remoteKeyBundle.offlineHash = r.remoteKeyBundle.offlineHash) ∧
      (∀ replyMessage state confirmMessage secs' ba hc,
        ReplyState.processInitialize seed aad m sk (some r) secs alloc createPayload =
          .ok (.incomplete replyMessage state) →
        state.processConfirm confirmMessage secs' ba = .ok hc →
        hc.remoteKeyBundle.offlineHash = r.remoteKeyBundle.offlineHash)) ∧
    (∀ (self : InitState C) (m : Bytes) (secs : UInt64) (ba : C.BundleAlloc) (ma : C.MessageAlloc)
        (hc : HandshakeComplete C), m.head? = some Reply.handshakeTypeFallback →
      self.processReply m secs ba ma = .ok hc → self.fallback.isSome ∧
      ¬ (self.secretKeyBundle.publicBundle.HasReliableStorage ∧ hc.remoteKeyBundle.HasReliableStorage)) ∧
    (∀ (seed : C.Seed) (aad m : Bytes) (sk : SecretBundle C) (secs : UInt64) (alloc : C.MessageAlloc)
        (createPayload : Unit → Bytes) (replyMessage : Bytes) (state : ReplyState C) (confirmMessage : Bytes)
        (secs' : UInt64) (ba : C.BundleAlloc) (hc : HandshakeComplete C),
      Initialize.resumptionTokenEnd ≤ m.length →
      ReplyState.processInitialize seed aad m sk none secs alloc createPayload =
        .ok (.incomplete replyMessage state) →
      state.processConfirm confirmMessage secs' ba = .ok hc →
      ¬ (sk.publicBundle.HasReliableStorage ∧ hc.remoteKeyBundle.HasReliableStorage)) := by
  refine ⟨fun _ _ _ _ _ _ _ hb h => InitState.reply_pinned hb h, fun _ _ _ _ r _ _ _ => ⟨?_, ?_⟩,
    fun _ _ _ _ _ _ hty h => InitState.reply_fallback hty h, ?_⟩
  · intro hc h
    obtain ⟨ek, r', t, hr, _, hkb, _⟩ := ReplyState.complete_authenticated h
    rw [hkb, Option.some.inj hr]
  · intro replyMessage state confirmMessage secs' ba hc h hconfirm
    obtain ⟨t, _, hacc⟩ := ReplyState.processConfirm_inv hconfirm
    exact hacc.pinned _ (ReplyState.incomplete_pinned h)
  · rintro seed aad m sk secs alloc createPayload replyMessage state confirmMessage secs' ba hc hm h hconfirm
      ⟨hl, hr⟩
    obtain ⟨t, _, hacc⟩ := ReplyState.processConfirm_inv hconfirm
    exact hacc.storage ⟨(ReplyState.incomplete_storage h hm).trans (decide_eq_true hl), hr⟩

theorem identity_pinned_no_downgrade_plain :
    let b := plain.bundle fun _ => Arr.zeros
    let r := plain.resumption fun _ => Arr.zeros
    (∃ m hc, m.head? = some Reply.handshakeTypeFallback ∧
      (plain.initiator fun _ => Arr.zeros).processReply m 5 () () = .ok hc ∧
      hc.remoteKeyBundle.offlineHash = b.publicBundle.offlineHash ∧
      ¬ (b.publicBundle.HasReliableStorage ∧ hc.remoteKeyBundle.HasReliableStorage)) ∧
    (∃ m hc, ReplyState.processInitialize () [] m b (some r) 5 () (fun _ => []) = .ok (.complete hc) ∧
      hc.remoteKeyBundle.offlineHash = b.publicBundle.offlineHash) ∧
    (∃ m replyMessage state confirmMessage hc, ReplyState.processInitialize () [] m b (some r) 5 () (fun _ => []) =
        .ok (.incomplete replyMessage state) ∧ state.processConfirm confirmMessage 5 () = .ok hc ∧
      hc.remoteKeyBundle.offlineHash = b.publicBundle.offlineHash) ∧
    (∃ m replyMessage state confirmMessage hc, Initialize.resumptionTokenEnd ≤ m.length ∧
      ReplyState.processInitialize () [] m b none 5 () (fun _ => []) = .ok (.incomplete replyMessage state) ∧
      state.processConfirm confirmMessage 5 () = .ok hc ∧
      ¬ (b.publicBundle.HasReliableStorage ∧ hc.remoteKeyBundle.HasReliableStorage)) := by
  have h := identity_pinned_no_downgrade (plain fun _ => Arr.zeros)
  refine ⟨?_, ?_, ?_, ?_⟩
  · obtain ⟨m, hc, hty, hm⟩ := plain.reply_accepted fun _ => Arr.zeros
    exact ⟨m, hc, hty, hm, h.1 _ _ _ _ _ _ _ rfl hm, (h.2.2.1 _ _ _ _ _ _ hty hm).2⟩
  · obtain ⟨m, hc, hm⟩ := plain.resume_accepted fun _ => Arr.zeros
    exact ⟨m, hc, hm, (h.2.1 _ _ _ _ _ _ _ _).1 _ hm⟩
  · obtain ⟨m, replyMessage, state, hm, hs⟩ := plain.outdated_accepted
    obtain ⟨c, hc, hcm⟩ := plain.confirm_accepted _ state fun _ he => Option.some.inj (hs.symm.trans he)
    exact ⟨m, replyMessage, state, c, hc, hm, hcm, (h.2.1 _ _ _ _ _ _ _ _).2 _ _ _ _ _ _ hm hcm⟩
  · obtain ⟨replyMessage, state, hm, hs⟩ := ReplyState.processInitialize_fallback (plain.correct fun _ => Arr.zeros)
      () () [] (plain.bundle _) () (fun _ => []) (Arr.zeros _) []
    obtain ⟨c, hc, hcm⟩ := plain.confirm_accepted _ state fun _ he => absurd (hs.symm.trans he) nofun
    have hl : Initialize.resumptionTokenEnd ≤ (((plain fun _ => Arr.zeros).generate ()).1.bytes ++
        ((Arr.zeros resumptionTokenLen).bytes ++ [])).length := by
      simp
    exact ⟨_, replyMessage, state, c, hc, hl, hm, hcm, h.2.2.2 _ _ _ _ _ _ _ _ _ _ _ _ _ hl hm hcm⟩

end Pqsnet.Transport
