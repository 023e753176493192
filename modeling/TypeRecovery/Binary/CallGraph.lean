import TypeRecovery.Binary.Basic
import TypeRecovery.Graph

/-! Which functions call which, by name. -/
namespace TypeRecovery

abbrev CallGraph := Graph String

namespace Binary

def namedFunctions (b : Binary) : List (String × Routine) :=
  b.modules.flatMap fun m => m.functions.map fun f => (m.functionName f, f)

/-- The name of the function that a block belongs to; the last one that claims it counts. -/
def ownerName? (b : Binary) (block : NodeId) : Option String :=
  (b.namedFunctions.reverse.find? fun entry => block ∈ entry.2.blocks).map Prod.fst

def calls (b : Binary) : List Edge :=
  b.edges.filter fun e => e.kind = .call && !b.isProxy e.source && !b.isProxy e.target

def callPair? (b : Binary) (e : Edge) : Option (String × String) := do
  return (← b.ownerName? e.source, ← b.ownerName? e.target)

/-- Every function has an entry, even if it calls nothing. -/
def callGraph (b : Binary) : CallGraph :=
  (b.calls.filterMap b.callPair?).foldl
    (fun graph call => graph.addEdge call.1 call.2)
    (OrdMap.ofList (b.namedFunctions.map fun entry => (entry.1, ∅)))

def callNotices (b : Binary) : List Notice :=
  (b.calls.filter fun e => (b.callPair? e).isNone).map fun e => .strayCall e.source e.target

end Binary
end TypeRecovery
