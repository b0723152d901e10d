import Pqsnet.Session.Slots

/-! The books that a session keeps on the documents it receives: which are being received, which wait to be taken, and
how many bytes of the window they use. -/

namespace Pqsnet.Session

open Checked Outcome SessionInner

structure Books where
  /-- Completed documents that wait to be taken. -/
  held : Multiset Undelivered
  /-- The announced lengths of the documents that are being received. -/
  receiving : ℕ
  total : ℕ
  max : ℕ
  ledger : Ledger

namespace Books

variable {P : Permits} {b b' : Books} {u : Undelivered}

/-- A document that was received into memory of its own. -/
def Plain : Undelivered → Prop
  | .ready d => d.buf.length = d.docLen
  | .reply _ _ => False

inductive Step (P : Permits) : Books → Books → Prop
  | refl {b : Books} : Step P b b
  | claim {b : Books} (n : ℕ) (hlt : b.total + n < 2 ^ 64) (hmax : b.total + n ≤ b.max) :
      Step P b { b with receiving := b.receiving + n, total := b.total + n }
  | complete {b : Books} {receiving : ℕ} (u : Undelivered) (hn : b.receiving = receiving + u.docLen) (hu : P.lend ∨ Plain u)
      (hnew : u.docNo ∉ b.ledger.completed) :
      Step P b { b with
        receiving := receiving, held := b.held + {u}
        ledger := { b.ledger with completed := b.ledger.completed ++ [u.docNo] } }
  | reject {b : Books} (receiving : ℕ) (hP : P.reject) : Step P b { b with receiving := receiving }
  | release {b : Books} {held : Multiset Undelivered} (u : Undelivered) (hh : b.held = held + {u}) :
      Step P b { b with
        held := held, total := fetchSub b.total u.len
        ledger := { b.ledger with released := b.ledger.released ++ [u.docNo] } }
  | lose {b : Books} {held : Multiset Undelivered} {len : ℕ} {c : UnreleasedChannel} (hP : P.lose)
      (hh : b.held = held + {.reply len c}) :
      Step P b { b with held := held, ledger := { b.ledger with lost := b.ledger.lost ++ [c.docNo] } }
  | deliver {b : Books} {held : Multiset Undelivered} (d : UnfinishedRecvDoc) (hh : b.held = held + {.ready d}) :
      Step P b { b with
        held := held, total := fetchSub b.total d.buf.length
        ledger := { b.ledger with taken := b.ledger.taken ++ [d.docNo] } }
  | deliverReply {b : Books} {held : Multiset Undelivered} {len : ℕ} {c : UnreleasedChannel}
      (hh : b.held = held + {.reply len c}) :
      Step P b { b with held := held, ledger := { b.ledger with taken := b.ledger.taken ++ [c.docNo] } }

/-- Every completed document was taken, released or lost, or waits, and only one of these once. -/
structure Kept (b : Books) : Prop where
  conserve : (b.ledger.completed : Multiset ℕ) =
    b.ledger.taken + b.ledger.released + b.ledger.lost + b.held.map Undelivered.docNo
  nodup : b.ledger.completed.Nodup

lemma coe_append_singleton (l : List ℕ) (n : ℕ) : ((l ++ [n] : List ℕ) : Multiset ℕ) = l + {n} := by
  rw [← Multiset.coe_add, Multiset.coe_singleton]

lemma Step.kept (hs : Step P b b') (hb : b.Kept) : b'.Kept := by
  obtain ⟨hc, hn⟩ := hb
  cases hs with
  | refl => exact ⟨hc, hn⟩
  | claim => exact ⟨hc, hn⟩
  | complete u _ _ hnew =>
    refine ⟨?_, List.nodup_append.mpr ⟨hn, List.nodup_singleton _, ?_⟩⟩
    · dsimp only
      rw [coe_append_singleton, hc, Multiset.map_add, Multiset.map_singleton, add_assoc]
    · rintro a ha _ hb rfl
      rw [List.mem_singleton] at hb
      exact hnew (hb ▸ ha)
  | reject => exact ⟨hc, hn⟩
  | release u hh =>
    refine ⟨?_, hn⟩
    dsimp only
    rw [hc, hh, coe_append_singleton, Multiset.map_add, Multiset.map_singleton]
    abel
  | lose _ hh =>
    refine ⟨?_, hn⟩
    dsimp only
    rw [hc, hh, coe_append_singleton, Multiset.map_add, Multiset.map_singleton]
    rw [Undelivered.docNo]
    abel
  | deliver d hh =>
    refine ⟨?_, hn⟩
    dsimp only
    rw [hc, hh, coe_append_singleton, Multiset.map_add, Multiset.map_singleton]
    rw [Undelivered.docNo]
    abel
  | deliverReply hh =>
    refine ⟨?_, hn⟩
    dsimp only
    rw [hc, hh, coe_append_singleton, Multiset.map_add, Multiset.map_singleton]
    rw [Undelivered.docNo]
    abel

lemma Step.mem_held (hs : Step P b b') (hu : u ∈ b'.held) :
    u ∈ b.held ∨ b'.ledger.completed = b.ledger.completed ++ [u.docNo] := by
  have hsub : ∀ {held : Multiset Undelivered} {v : Undelivered}, b.held = held + {v} → u ∈ held → u ∈ b.held :=
    fun hh hu => hh ▸ Multiset.mem_add.mpr (.inl hu)
  cases hs with
  | refl => exact .inl hu
  | claim => exact .inl hu
  | complete v =>
    rcases Multiset.mem_add.mp hu with hu | hu
    · exact .inl hu
    · rw [Multiset.mem_singleton.mp hu]
      exact .inr rfl
  | reject => exact .inl hu
  | release v hh => exact .inl (hsub hh hu)
  | lose _ hh => exact .inl (hsub hh hu)
  | deliver d hh => exact .inl (hsub hh hu)
  | deliverReply hh => exact .inl (hsub hh hu)

lemma Kept.mem_completed (hb : b.Kept) (hu : u ∈ b.held) : u.docNo ∈ b.ledger.completed := by
  rw [← Multiset.mem_coe, hb.conserve]
  exact Multiset.mem_add.mpr (.inr (Multiset.mem_map_of_mem _ hu))

lemma Kept.nodup_add (hb : b.Kept) :
    ((b.ledger.taken + b.ledger.released + b.ledger.lost : Multiset ℕ) + b.held.map Undelivered.docNo).Nodup := by
  rw [← hb.conserve]
  exact Multiset.coe_nodup.mpr hb.nodup

lemma Kept.notMem_released (hb : b.Kept) (hu : u ∈ b.held) : u.docNo ∉ b.ledger.released := by
  intro hr
  have hdis := (Multiset.nodup_add.mp hb.nodup_add).2.2
  refine Multiset.disjoint_left.mp hdis ?_ (Multiset.mem_map_of_mem _ hu)
  exact Multiset.mem_add.mpr (.inl (Multiset.mem_add.mpr (.inr (Multiset.mem_coe.mpr hr))))

/-- The announced lengths of all documents that wait. -/
def waitingLen (held : Multiset Undelivered) : ℕ := (held.map Undelivered.docLen).sum

lemma waitingLen_add (held : Multiset Undelivered) (u : Undelivered) : waitingLen (held + {u}) = waitingLen held + u.docLen := by
  rw [waitingLen, Multiset.map_add, Multiset.sum_add, Multiset.map_singleton, Multiset.sum_singleton]
  rfl

lemma Plain.len (hu : Plain u) : u.len = u.docLen := by
  cases u with
  | ready d => exact hu
  | reply => exact absurd hu id

lemma fetchSub_eq {m n : ℕ} (hle : n ≤ m) (hlt : m < 2 ^ 64) : fetchSub m n = m - n := by
  rw [fetchSub]
  omega

/-- The window is used by exactly the documents that are being received or wait. -/
structure Balanced (b : Books) : Prop where
  plain : ∀ u ∈ b.held, Plain u
  total : b.total = b.receiving + waitingLen b.held
  small : b.total < 2 ^ 64
  max : b.total ≤ b.max

lemma Balanced.give {held : Multiset Undelivered} (hb : b.Balanced) (hh : b.held = held + {u}) (ledger : Ledger) :
    Balanced { b with held := held, total := fetchSub b.total u.len, ledger := ledger } := by
  obtain ⟨hplain, htotal, hsmall, hmax⟩ := hb
  have hu : Plain u := hplain u (by rw [hh]; exact Multiset.mem_add.mpr (.inr (Multiset.mem_singleton_self u)))
  rw [hh, waitingLen_add] at htotal
  have hsub : fetchSub b.total u.len = b.receiving + waitingLen held := by
    rw [fetchSub_eq (by rw [hu.len]; omega) hsmall, hu.len]
    omega
  refine ⟨fun v hv => hplain v (by rw [hh]; exact Multiset.mem_add.mpr (.inl hv)), hsub, ?_, ?_⟩ <;>
    dsimp only <;> omega

lemma Balanced.no_reply {held : Multiset Undelivered} {len : ℕ} {c : UnreleasedChannel} (hb : b.Balanced)
    (hh : b.held = held + {.reply len c}) : False :=
  hb.plain (.reply len c) (by rw [hh]; exact Multiset.mem_add.mpr (.inr (Multiset.mem_singleton_self _)))

lemma Step.balanced (hs : Step P b b') (hlend : ¬ P.lend) (hreject : ¬ P.reject) (hb : b.Balanced) : b'.Balanced := by
  cases hs with
  | refl => exact hb
  | claim n hlt hmax =>
    refine ⟨hb.plain, ?_, hlt, hmax⟩
    have htotal := hb.total
    dsimp only
    omega
  | complete u hn hu hnew =>
    refine ⟨fun v hv => ?_, ?_, hb.small, hb.max⟩
    · rcases Multiset.mem_add.mp hv with hv | hv
      · exact hb.plain v hv
      · rw [Multiset.mem_singleton.mp hv]
        exact hu.resolve_left hlend
    · have htotal := hb.total
      dsimp only
      rw [waitingLen_add]
      omega
  | reject _ hP => exact absurd hP hreject
  | release u hh => exact hb.give hh _
  | lose _ hh => exact absurd (hb.no_reply hh) id
  | deliver d hh => exact hb.give hh _
  | deliverReply hh => exact absurd (hb.no_reply hh) id

end Books

end Pqsnet.Session
