import TypeRecovery.Concrete.Basic
import TypeRecovery.Lattice.Ground

/-! The concrete type of a value that lies between two bounds of the lattice. -/
namespace TypeRecovery

abbrev SealedTypes := OrdMap TypeVar NodeId

/-- The type of an atom for a value of the given size. Function and string types bring along a
node for what they refer to. -/
def Ground.concrete? (arena : Arena) (size : Nat) : Ground → Option (Arena × Concrete)
  | .int | .number => some (arena, .int size true)
  | .uint => some (arena, .int size false)
  | .float => some (arena, .float size)
  | .char => some (arena, .char 1)
  | .char16 => some (arena, .char 2)
  | .char32 => some (arena, .char 4)
  | .bool => some (arena, .bool)
  | .void => some (arena, .void)
  | .code =>
    let (arena, ret) := arena.push .void
    some (arena, .function (some ret) [])
  | .str =>
    let (arena, target) := arena.push (.char 1)
    some (arena, .pointer (some target) size)
  | .num w | .signed w => some (arena, .int (w.bits / 8) true)
  | .unsigned w => some (arena, .int (w.bits / 8) false)
  | .floating w => some (arena, .float (w.bits / 8))
  | .bottom | .top => none

/-- The bound that says more: the lower one, unless only the upper one differs from its sentinel. -/
def decisiveBound (lower upper : TypeVar) : TypeVar :=
  if upper.base = Ground.top.name then lower
  else if lower.base = Ground.bottom.name then upper
  else lower

namespace Arena

def pushBytes (arena : Arena) (size : Nat) : Arena × Handle :=
  let (arena, member) := arena.push (.char 1)
  arena.push (.array (some member) size)

/-- A sealed bound wins over all else and makes a pointer to the sealed type. -/
def pushBounds (arena : Arena) (sealedTypes : SealedTypes) (lower upper : TypeVar) (size : Nat) :
    Arena × Handle :=
  match (sealedTypes.get? lower).or (sealedTypes.get? upper) with
  | some origin =>
    let (arena, target) := arena.push (.sealed origin)
    arena.push (.pointer (some target) size)
  | none =>
    match (decisiveBound lower upper).ground?.bind (Ground.concrete? arena size) with
    | some (arena, node) => arena.push node
    | none => arena.pushBytes size

end Arena
end TypeRecovery
