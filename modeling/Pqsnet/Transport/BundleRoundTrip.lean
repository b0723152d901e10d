import Pqsnet.Transport.Correctness

/-! From a secret bundle to its public bytes and back, and from a bundle to its bytes through the accessors. -/

namespace Pqsnet.Transport

open Checked Outcome KeyBundle

variable {C : CryptoAndMem}

namespace SecretBundle

/-- The public bytes of a new bundle authenticate to that bundle inside of its window, and what follows them is not
absorbed. -/
theorem authenticate_new (sign : Bytes → Bytes → Arr Mldsa87.signLen) (onlineSecretKey : C.SecretKey)
    (offlineKey : Arr Mldsa87.publicKeyLen) (onlinePublicKey : C.PublicKey) (onlineKey : Arr Mldsa87.publicKeyLen)
    (notBefore notAfter : UInt64) (counter flags : UInt32) (ext : Bytes) (alloc alloc' : C.BundleAlloc) {k : C.PublicKey}
    (hoffline : KeyPair C sign offlineKey) (honline : C.decode onlineKey = some k) (hext : ext.length < 2 ^ 32)
    (halloc : (C.mallocBundle alloc (extensionsStart + ext.length + offlineSignLen)).isSome)
    (halloc' : (C.mallocBundle alloc' (extensionsStart + ext.length + offlineSignLen)).isSome) :
    ∃ sk : SecretBundle C,
      (new sign onlineSecretKey offlineKey onlinePublicKey onlineKey notBefore notAfter counter flags ext alloc : Outcome Empty _) =
        .ok sk ∧
      (sk.publicBundle.notBefore = notBefore ∧ sk.publicBundle.notAfter = notAfter ∧ sk.publicBundle.counter = counter ∧
        sk.publicBundle.flags = flags) ∧
      ∀ (suffix : Bytes) (secs : UInt64),
        (notBefore ≤ secs → secs ≤ notAfter →
          AuthenticBundle.authenticate (sk.publicBundle.publicBytes ++ suffix) secs alloc' =
            .ok { sk.publicBundle with onlineKey := k }) ∧
        (secs < notBefore →
          (AuthenticBundle.authenticate (sk.publicBundle.publicBytes ++ suffix) secs alloc' : Outcome _ (AuthenticBundle C)) =
            err .postdatedKey) ∧
        (notBefore ≤ secs → notAfter < secs →
          (AuthenticBundle.authenticate (sk.publicBundle.publicBytes ++ suffix) secs alloc' : Outcome _ (AuthenticBundle C)) =
            err .expiredKey) := by
  obtain ⟨key, hkey, hsign⟩ := hoffline
  obtain ⟨mem, hmem⟩ := Option.isSome_iff_exists.mp halloc
  obtain ⟨mem', hmem'⟩ := Option.isSome_iff_exists.mp halloc'
  obtain ⟨d, hd⟩ : ∃ d, d = head offlineKey onlineKey notBefore notAfter counter flags ext := ⟨_, rfl⟩
  have hnew := new_eq (ε := Empty) sign onlineSecretKey offlineKey onlinePublicKey onlineKey notBefore notAfter counter flags ext
    alloc hd
  have hl : ext.length = d.extensionsLen.toNat := by
    rw [hd, head, UInt32.toNat_ofNat', Nat.mod_eq_of_lt hext]
  have hv : d.version = versionValue := by rw [hd]; rfl
  have hoff : C.decode d.offlineKey = some key := by rw [hd]; exact hkey
  have hon : C.decode d.onlineKey = some k := by rw [hd]; exact honline
  obtain ⟨rfl, rfl⟩ : d.notBefore = notBefore ∧ d.notAfter = notAfter := by rw [hd]; exact ⟨rfl, rfl⟩
  obtain ⟨rfl, rfl⟩ : d.counter = counter ∧ d.flags = flags := by rw [hd]; exact ⟨rfl, rfl⟩
  rw [hmem, unwrap_some, ok_bind] at hnew
  refine ⟨_, hnew, ⟨rfl, rfl, rfl, rfl⟩, fun suffix secs => ?_⟩
  have hauth := AuthenticBundle.authenticate_signed hv hl hoff (hsign _ _) hon hmem' suffix secs
  refine ⟨fun hb ha => ?_, fun hb => ?_, fun hb ha => ?_⟩
  · exact (hauth.trans (if_neg (UInt64.not_lt.mpr hb))).trans (if_neg (UInt64.not_lt.mpr ha))
  · exact hauth.trans (if_pos hb)
  · exact (hauth.trans (if_neg (UInt64.not_lt.mpr hb))).trans (if_pos ha)

/-- A bundle with one byte of extensions that is valid from 3 to 10, with another byte behind it. -/
theorem authenticate_new_plain :
    ∃ sk : SecretBundle (plain fun _ n => Arr.zeros n),
      (new (fun _ _ => Arr.zeros _) () (Arr.zeros _) () (Arr.zeros _) 3 10 0 1 [7] () : Outcome Empty _) = .ok sk ∧
      AuthenticBundle.authenticate (sk.publicBundle.publicBytes ++ [9]) 5 () = .ok sk.publicBundle ∧
      (AuthenticBundle.authenticate (sk.publicBundle.publicBytes ++ [9]) 2 () :
        Outcome AuthError (AuthenticBundle (plain fun _ n => Arr.zeros n))) = err .postdatedKey := by
  obtain ⟨sk, hnew, -, hauth⟩ := authenticate_new (C := plain fun _ n => Arr.zeros n) (fun _ _ => Arr.zeros _) () (Arr.zeros _) ()
    (Arr.zeros _) 3 10 0 1 [7] () () ⟨(), rfl, fun _ _ => rfl⟩ rfl (by decide) rfl rfl
  exact ⟨sk, hnew, (hauth [9] 5).1 (by decide) (by decide), (hauth [9] 2).2.1 (by decide)⟩

end SecretBundle

namespace AuthenticBundle

section Accessors

variable {b : AuthenticBundle C}

/-- A bundle that was built from two key pairs, or authenticated. -/
inductive Obtained : AuthenticBundle C → Prop
  | new {sign : Bytes → Bytes → Arr Mldsa87.signLen} {offlineKey onlineKey : Arr Mldsa87.publicKeyLen}
    {onlineSecretKey : C.SecretKey} {onlinePublicKey : C.PublicKey} {notBefore notAfter : UInt64} {counter flags : UInt32}
    {ext : Bytes} {alloc : C.BundleAlloc} {sk : SecretBundle C} (hext : ext.length < 2 ^ 32)
    (h : (SecretBundle.new sign onlineSecretKey offlineKey onlinePublicKey onlineKey notBefore notAfter counter flags ext alloc :
      Outcome Empty _) = .ok sk) : Obtained sk.publicBundle
  | authenticated {buf : Bytes} {secs : UInt64} {alloc : C.BundleAlloc} {b : AuthenticBundle C}
    (h : authenticate buf secs alloc = .ok b) : Obtained b

/-- The fields of a bundle in the order of the layout, with `extensions` for the extensions. -/
def rewrite (b : AuthenticBundle C) (extensions : Bytes) : Bytes :=
  [versionValue] ++ (b.publicBytes.take offlineKeyEnd).drop offlineKeyStart ++
    (b.publicBytes.take onlineKeyEnd).drop onlineKeyStart ++ toBe 8 b.notBefore.toNat ++ toBe 8 b.notAfter.toNat ++
    toBe 4 b.counter.toNat ++ toBe 4 b.flags.toNat ++ toBe 4 (extensions.length % 2 ^ 32) ++ extensions ++
    b.publicBytes.drop (b.publicBytes.length - offlineSignLen)

/-- How many bytes the offline signature covers, by the length field of the bundle. -/
def signedLen (b : AuthenticBundle C) : ℕ :=
  extensionsStart + fromBe ((b.publicBytes.take extensionsLenEnd).drop extensionsLenStart)

def signedExtensions (b : AuthenticBundle C) : Bytes := (b.publicBytes.take b.signedLen).drop extensionsStart

/-- What follows the signed part. -/
def unsigned (b : AuthenticBundle C) : Bytes := b.publicBytes.drop b.signedLen

/-- The accessors give back the bytes, and `extensions` is the signed region. -/
def Reproduced (b : AuthenticBundle C) : Prop :=
  ∃ e, (b.extensions : Outcome Empty _) = .ok e ∧ b.rewrite e = b.publicBytes ∧ e = b.signedExtensions

lemma Obtained.layout (h : b.Obtained) : ∃ (d : BundleHead) (ext : Bytes) (sign : Arr Mldsa87.signLen) (k : C.PublicKey),
    b = ofHead d k (ext ++ sign.bytes) ∧ ext.length = d.extensionsLen.toNat ∧ d.version = versionValue := by
  cases h with
  | @new sign offlineKey onlineKey onlineSecretKey onlinePublicKey notBefore notAfter counter flags ext alloc sk hext h =>
    rw [SecretBundle.new_eq sign onlineSecretKey offlineKey onlinePublicKey onlineKey notBefore notAfter counter flags ext alloc
      rfl] at h
    obtain ⟨_, -, h⟩ := bind_eq_ok.mp h
    obtain rfl := ok_inj.mp h
    refine ⟨_, ext, _, onlinePublicKey, rfl, ?_, rfl⟩
    rw [SecretBundle.head, UInt32.toNat_ofNat', Nat.mod_eq_of_lt hext]
  | authenticated h =>
    obtain ⟨d, ext, sign, _, _, k, -, hl, hv, -, -, -, -, -, rfl⟩ := authenticate_inv h
    exact ⟨d, ext, sign, k, rfl, hl, hv⟩

variable {d : BundleHead} {ext : Bytes} {sign : Arr Mldsa87.signLen} {k : C.PublicKey}

lemma slice_bytes {s e : ℕ} {b c : Bytes} (h : (slice b s e : Outcome Empty _) = .ok c) : (b.take e).drop s = c :=
  (slice_eq_ok.mp h).2.2.symm

lemma publicBytes_ofHead (body : Bytes) : (ofHead d k body : AuthenticBundle C).publicBytes = d.bytes ++ body := rfl

lemma signedLen_ofHead (hl : ext.length = d.extensionsLen.toNat) :
    (ofHead d k (ext ++ sign.bytes) : AuthenticBundle C).signedLen = (d.bytes ++ ext).length := by
  have hv := d.extensionsLen.toNat_lt
  rw [signedLen, publicBytes_ofHead, slice_bytes (d.slice_extensionsLen _), fromBe_toBe, Nat.mod_eq_of_lt (by omega), ← hl, List.length_append,
    BundleHead.bytes_length]

lemma signedExtensions_ofHead (hl : ext.length = d.extensionsLen.toNat) :
    (ofHead d k (ext ++ sign.bytes) : AuthenticBundle C).signedExtensions = ext := by
  rw [signedExtensions, signedLen_ofHead hl, publicBytes_ofHead, ← List.append_assoc, List.take_left, ← BundleHead.bytes_length d, List.drop_left]

lemma unsigned_ofHead (hl : ext.length = d.extensionsLen.toNat) :
    (ofHead d k (ext ++ sign.bytes) : AuthenticBundle C).unsigned = sign.bytes := by
  rw [unsigned, signedLen_ofHead hl, publicBytes_ofHead, ← List.append_assoc, List.drop_left]

lemma extensions_ofHead (body : Bytes) : ((ofHead d k body : AuthenticBundle C).extensions : Outcome Empty _) = .ok body :=
  slice_mid (a := d.bytes) (c := []) (by rw [List.append_nil]; rfl) (BundleHead.bytes_length d).symm (List.length_append ..)

lemma rewrite_ofHead (hv : d.version = versionValue) (e : Bytes) :
    (ofHead d k (ext ++ sign.bytes) : AuthenticBundle C).rewrite e =
      { d with extensionsLen := UInt32.ofNat e.length }.bytes ++ (e ++ sign.bytes) := by
  have hsign : (d.bytes ++ (ext ++ sign.bytes)).drop ((d.bytes ++ (ext ++ sign.bytes)).length - offlineSignLen) = sign.bytes := by
    rw [← List.append_assoc, List.length_append, sign.size, offlineSignLen, Nat.add_sub_cancel, List.drop_left]
  rw [rewrite, publicBytes_ofHead, slice_bytes (d.slice_offlineKey _), slice_bytes (d.slice_onlineKey _), hsign, BundleHead.bytes,
    ← hv, UInt32.toNat_ofNat']
  simp only [List.append_assoc]
  rfl

/-- Only the signed region gives back the bytes, and `extensions` has the signature behind it. -/
theorem reproduced_iff (h : b.Obtained) :
    (b.Reproduced ↔ b.unsigned = []) ∧ b.unsigned.length = offlineSignLen ∧
      (b.extensions : Outcome Empty _) = .ok (b.signedExtensions ++ b.unsigned) ∧
      ∀ e, b.rewrite e = b.publicBytes ↔ e = b.signedExtensions := by
  obtain ⟨d, ext, sign, k, rfl, hl, hv⟩ := h.layout
  have hrewrite : ∀ e, (ofHead d k (ext ++ sign.bytes) : AuthenticBundle C).rewrite e = d.bytes ++ (ext ++ sign.bytes) ↔ e = ext := by
    intro e
    rw [rewrite_ofHead hv]
    constructor
    · intro he
      have hbody := (List.append_inj he (by rw [BundleHead.bytes_length, BundleHead.bytes_length])).2
      exact List.append_cancel_right hbody
    · rintro rfl
      rw [hl, UInt32.ofNat_toNat]
  rw [Reproduced, extensions_ofHead, signedExtensions_ofHead hl, unsigned_ofHead hl]
  refine ⟨⟨?_, fun hnil => ?_⟩, sign.size, rfl, hrewrite⟩
  · rintro ⟨e, he, -, rfl⟩
    exact List.append_right_eq_self.mp (ok_inj.mp he)
  · rw [hnil, List.append_nil] at hrewrite ⊢
    exact ⟨ext, rfl, (hrewrite ext).mpr rfl, rfl⟩

lemma obtained_plain : (plain.bundle fun _ n => Arr.zeros n).publicBundle.Obtained := by
  have hext : ([] : Bytes).length < 2 ^ 32 := by decide
  exact .new hext (SecretBundle.new_eq (C := plain fun _ n => Arr.zeros n) (fun _ _ => Arr.zeros _) () (Arr.zeros _) ()
    (Arr.zeros _) 0 10 0 0 [] () rfl)

/-- A bundle without extensions. -/
theorem reproduced_iff_plain :
    let b := (plain.bundle fun _ n => Arr.zeros n).publicBundle
    (b.extensions : Outcome Empty _) = .ok (b.signedExtensions ++ b.unsigned) ∧ b.unsigned.length = 4627 ∧
      b.rewrite b.signedExtensions = b.publicBytes := by
  obtain ⟨-, hlen, hext, hrewrite⟩ := reproduced_iff obtained_plain
  exact ⟨hext, hlen, (hrewrite _).mpr rfl⟩

/-- There are no extensions, but `extensions` returns the 4627 bytes of the signature. -/
theorem extensions_with_signature :
    let b := (plain.bundle fun _ n => Arr.zeros n).publicBundle
    b.Obtained ∧ b.signedExtensions = [] ∧ (b.extensions : Outcome Empty _) = .ok (Arr.zeros Mldsa87.signLen).bytes ∧
      ¬ b.Reproduced := by
  have hl : ([] : Bytes).length = plain.head.extensionsLen.toNat := rfl
  have hb : (plain.bundle fun _ n => Arr.zeros n).publicBundle = ofHead plain.head () ([] ++ (Arr.zeros Mldsa87.signLen).bytes) := by
    rw [List.nil_append]
    rfl
  have hnil : (plain.bundle fun _ n => Arr.zeros n).publicBundle.signedExtensions = [] :=
    (congrArg signedExtensions hb).trans (signedExtensions_ofHead hl)
  have hext : ((plain.bundle fun _ n => Arr.zeros n).publicBundle.extensions : Outcome Empty _) =
      .ok (Arr.zeros Mldsa87.signLen).bytes := extensions_ofHead _
  refine ⟨obtained_plain, hnil, hext, ?_⟩
  rintro ⟨e, he, -, hsigned⟩
  rw [hext, ok_inj, hsigned, hnil] at he
  have hlen := congrArg List.length he
  rw [(Arr.zeros Mldsa87.signLen).size] at hlen
  cases hlen

end Accessors

end AuthenticBundle

end Pqsnet.Transport
