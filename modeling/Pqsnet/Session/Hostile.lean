import Pqsnet.Session.Conservation

/-! When a segment that anybody may have made stops the program. -/

namespace Pqsnet.Session

open Checked Outcome SessionInner

variable {T ε : Type}

namespace SegFrame

variable {variant : UInt8} {packet : Bytes} {i docNo : ℕ}

/-- The part of a segment in front of its data. -/
def readHeader (variant : UInt8) (packet : Bytes) (i : ℕ) : Outcome RecvError ((ℕ × Option ℕ × Option ℕ × ℕ) × ℕ) := do
  let hasSpecialParent := hasFlag variant variantSegFlagHasSpecialParent
  let isFirst := hasFlag variant variantSegFlagIsFirst
  let (docNo, i) ← readVar packet i
  let (docLen, i) ← readDocLen (hasFlag variant variantSegFlagHasDocLen) packet i
  let (parentNo, i) ← readParent (hasSpecialParent || isFirst) docNo packet i
  let (off, i) ← readOff isFirst packet i
  .ok ((docNo, docLen, parentNo, off), i)

end SegFrame

namespace SessionInner

variable {s : SessionInner T} {h : Hand} {f : SegFrame} {i : ℕ} {e : RecvDocMutable} {doc : RecvDoc}

lemma Comes.exists {α : Type} {Q : α → Prop} {x : Outcome ε α} (hx : Comes Q x) : ∃ a, x = .ok a ∧ Q a := by
  rcases x with (p | e) | a
  · exact absurd hx id
  · exact absurd hx id
  · exact ⟨a, rfl, hx⟩

lemma recvFrame_eq (hpos : 0 < s.recvTable.length) (hs : ¬ s.isSending f.docNo) (he : s.recvTable[s.recvIdx f.docNo]? = some e) :
    (s.recvFrame f : Outcome ε _) = if e.docNo = f.docNo then s.updateDoc (s.recvIdx f.docNo) e f
      else if e.docNo < f.docNo then s.createDoc (s.recvIdx f.docNo) e f else .ok (.ok (), s) := by
  rw [recvFrame, if_neg hs, slot, if_neg hpos.ne', ok_bind, entryAt,
    show s.recvTable[(f.docNo >>> 1) % s.recvTable.length]? = some e from he]
  exact ok_bind _ _

end SessionInner

namespace World

variable [LT T] [DecidableLT T] {w : World T}

end World

end Pqsnet.Session
