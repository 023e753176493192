import TypeRecovery.Solver.Basic

/-! Solving by transitivity alone. A function sees its own constraints and those of the functions
it calls, directly or not. Each of its variables lies between the join of the atoms below it and
the meet of the atoms above it. -/
namespace TypeRecovery

namespace Problem

def visible (p : Problem) (function : String) : ConstraintSet :=
  OrdSet.ofList ((p.calls.reachable function).toList.flatMap fun f =>
    ((p.constraints.get? f).getD ∅).toList)

def order (p : Problem) (function : String) : Graph TypeVar :=
  (p.visible function).toList.foldr (fun c g => g.addEdge c.lower c.upper) ∅

def consequences (p : Problem) (function : String) : ConstraintSet :=
  OrdSet.ofList ((p.order function).closure.map fun pair => ⟨pair.1, pair.2⟩)

def owns (p : Problem) (function : String) (v : TypeVar) : Bool :=
  v.base == function && !p.lattice.contains v

def derived (p : Problem) (function : String) (all : ConstraintSet) : ConstraintSet :=
  all.filter fun c =>
    (p.owns function c.lower && p.lattice.contains c.upper)
      || (p.lattice.contains c.lower && p.owns function c.upper)

/-- The own variables of the visible constraints, all that lie above them, and the function
itself. Consequences are about no other variables. -/
def sketchVariables (p : Problem) (function : String) : OrdSet TypeVar :=
  let own := OrdSet.ofList (((p.visible function).toList.flatMap fun c =>
    [c.lower, c.upper]).filter (p.owns function))
  (OrdSet.ofList (own.toList.flatMap TypeVar.ancestry)).insert ⟨function, []⟩

/-- The consequences about an atom. Only they bound a variable. -/
def atomic (p : Problem) (all : ConstraintSet) : ConstraintSet :=
  all.filter fun c => p.lattice.contains c.lower || p.lattice.contains c.upper

def bounds (p : Problem) (all : ConstraintSet) (v : TypeVar) : Bounds where
  lower := p.lattice.joinAll ((all.toList.filter fun c =>
    c.upper == v && p.lattice.contains c.lower).map Constraint.lower)
  upper := p.lattice.meetAll ((all.toList.filter fun c =>
    c.lower == v && p.lattice.contains c.upper).map Constraint.upper)

def sketch (p : Problem) (function : String) (all : ConstraintSet) : Sketch :=
  let known := p.atomic all
  (p.sketchVariables function).toList.foldr (fun v s => s.add v (p.bounds known v))
    ⟨⟨function, []⟩, ∅⟩

def solveByClosure (p : Problem) : Solution :=
  p.constraints.keys.foldl (fun solution function =>
    let all := p.consequences function
    { derived := solution.derived.insert ⟨function, []⟩ (p.derived function all)
      sketches := solution.sketches.insert ⟨function, []⟩ (p.sketch function all) }) {}

end Problem

def closureSolver : Solver := fun p => .ok p.solveByClosure

end TypeRecovery
