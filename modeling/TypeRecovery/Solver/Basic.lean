import TypeRecovery.Binary.CallGraph
import TypeRecovery.Constraint
import TypeRecovery.Lattice.Basic
import TypeRecovery.Sketch.Shape

/-! Solving subtype constraints for the functions of a program. -/
namespace TypeRecovery

structure Problem where
  lattice : AtomLattice
  /-- The constraints of each function by name. -/
  constraints : OrdMap String ConstraintSet
  calls : CallGraph

structure Solution where
  /-- The constraints that follow for each function. -/
  derived : OrdMap TypeVar ConstraintSet := ∅
  sketches : Sketches := ∅

abbrev Solver := Problem → Except Error Solution

end TypeRecovery
