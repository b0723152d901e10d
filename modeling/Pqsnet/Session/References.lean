import Pqsnet.Session.Conservation
import Pqsnet.Session.Runs

/-! The reference count of a channel covers everything that still refers to it, whatever the threads do. -/

namespace Pqsnet.Session

open Checked Outcome SessionInner

variable {T : Type} {m : Machine T} {docNo : ℕ}

/-- The handle that a future owns. -/
def SendReplyFuture.reply (fut : SendReplyFuture) : Option Channel :=
  match fut.state with
  | .sending _ => none
  | .sent reply => some reply

/-- Whether the channel was closed already when the document was completed. -/
def Undelivered.isClosed : Undelivered → Bool
  | .ready d => d.isClosed
  | .reply _ c => c.isClosed

/-- The documents that wait in a channel which a thread has taken out of its slot. -/
def Task.held : Task → Multiset Undelivered
  | .wait _ closedChannel => channelHeld closedChannel
  | _ => 0

namespace Machine

/-- The handles that are in use, with those that futures own. -/
def live (m : Machine T) : List Channel := m.handles ++ m.futures.filterMap SendReplyFuture.reply

end Machine

section Counts

end Counts

namespace Machine

end Machine

namespace Machine

/-- The channel that is open from the start, and one handle to it. -/
def oneHandle : Machine ℕ := ⟨World.oneChannel.session, [], [], World.oneChannel.handles, [], [], []⟩

lemma oneHandle_initial : oneHandle.Initial where
  idle := ⟨rfl, rfl, rfl, rfl, rfl, rfl⟩
  parity := rfl
  recv := by
    rintro (_ | i) e he
    · cases he
      exact ⟨Bool.false_ne_true, rfl, fun c hc => by cases hc; exact ⟨rfl, rfl, Bool.false_ne_true, Bool.false_ne_true, rfl⟩⟩
    · rw [List.eq_of_mem_replicate (List.mem_of_getElem? (l := List.replicate 3 _) he)]
      exact ⟨Bool.false_ne_true, rfl, fun c hc => by cases hc⟩
  send := by
    intro i e he c hc
    rw [List.eq_of_mem_replicate (List.mem_of_getElem? (l := List.replicate 4 _) he)] at hc
    cases hc
  handles := by
    intro c hc
    rw [List.mem_singleton.mp hc]
    exact ⟨_, rfl, le_rfl⟩

end Machine

end Pqsnet.Session
