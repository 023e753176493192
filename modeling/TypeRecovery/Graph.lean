import TypeRecovery.Inventory
import TypeRecovery.Ordered.Map
import TypeRecovery.Ordered.Set

/-! Finite directed graphs, and what their elements lead to. -/
namespace TypeRecovery

/-- The direct successors of elements; one without an entry has none. -/
abbrev Graph (α : Type) [Ord α] := OrdMap α (OrdSet α)

namespace Graph
variable {α : Type} [Ord α]

def next (g : Graph α) (a : α) : List α := ((g.get? a).getD ∅).toList

variable [Std.TransOrd α]

def addEdge (g : Graph α) (a b : α) : Graph α :=
  g.modifyD a ∅ fun successors => successors.insert b

def targets (g : Graph α) : OrdSet α := OrdSet.ofList (g.values.flatMap OrdSet.toList)

variable [DecidableEq α]

def reachable (g : Graph α) (a : α) : OrdSet α :=
  OrdSet.ofList (reach g.next (g.targets.insert a).toList [a])

/-- The pairs of an element and one that it leads to by one edge or more. -/
def closure (g : Graph α) : List (α × α) :=
  let unmet := g.targets.toList
  g.keys.flatMap fun a => (reach g.next unmet (g.next a)).map fun b => (a, b)

end Graph
end TypeRecovery
