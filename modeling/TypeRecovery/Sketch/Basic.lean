import TypeRecovery.Ordered.Map
import TypeRecovery.TypeVar

/-! Sketches: what solving found out about a function, as bounds for the variables below it. -/
namespace TypeRecovery

structure Bounds where
  lower : TypeVar
  upper : TypeVar
deriving DecidableEq

structure Sketch where
  root : TypeVar
  nodes : OrdMap TypeVar Bounds := ∅
deriving DecidableEq

namespace Sketch

def add (s : Sketch) (v : TypeVar) (bounds : Bounds) : Sketch :=
  { s with nodes := s.nodes.insert v bounds }

def get? (s : Sketch) (v : TypeVar) : Option Bounds := s.nodes.get? v

def addition? : List Label → List Label → Option Label
  | [], [label] => some label
  | a :: short, b :: long => if a = b then addition? short long else none
  | _, _ => none

/-- The label that leads from `v` to `w`, if `w` is just one label below. -/
def step? (v w : TypeVar) : Option Label :=
  if v.base = w.base then addition? v.path w.path else none

def children (s : Sketch) (v : TypeVar) : List (Label × TypeVar) :=
  s.nodes.keys.filterMap fun w => (step? v w).map fun label => (label, w)

end Sketch
end TypeRecovery
