import Mathlib.Logic.Relation
import Mathlib.Tactic

/-! A search that takes the edges of what it visits out of the graph. -/

namespace Pqsnet.Checked

open Relation

variable {α : Type*} {r r' : α → α → Prop} {p : α → Prop} {a b x v : α} {pushed stack : List α}

end Pqsnet.Checked
