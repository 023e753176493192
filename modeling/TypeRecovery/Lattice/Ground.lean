import TypeRecovery.TypeVar

/-! The fixed atoms and their order. Integers lie both under their signedness (`int`, `uint`)
and under their width (`num32`, …), so that the join of `int32` and `uint32` is `num32`. -/
namespace TypeRecovery

inductive IntWidth where
  | w8
  | w16
  | w32
  | w64
  | w128
deriving DecidableEq

inductive FloatWidth where
  | w32
  | w64
  | w80
  | w128
deriving DecidableEq

def IntWidth.bits : IntWidth → Nat
  | w8 => 8
  | w16 => 16
  | w32 => 32
  | w64 => 64
  | w128 => 128

def FloatWidth.bits : FloatWidth → Nat
  | w32 => 32
  | w64 => 64
  | w80 => 80
  | w128 => 128

inductive Ground where
  | bottom
  | top
  | void
  | bool
  | code
  | str
  | number
  | int
  | uint
  | float
  | num (width : IntWidth)
  | signed (width : IntWidth)
  | unsigned (width : IntWidth)
  | char
  | char16
  | char32
  | floating (width : FloatWidth)
deriving DecidableEq

namespace Ground

def intWidths : List IntWidth := [.w8, .w16, .w32, .w64, .w128]

def floatWidths : List FloatWidth := [.w32, .w64, .w80, .w128]

def inner : List Ground :=
  [void, bool, code, str, number, int, uint, float, char, char16, char32]
    ++ intWidths.map num ++ intWidths.map signed ++ intWidths.map unsigned
    ++ floatWidths.map floating

def all : List Ground := bottom :: top :: inner

theorem mem_all (g : Ground) : g ∈ all := by
  cases g with
  | num w => cases w <;> decide
  | signed w => cases w <;> decide
  | unsigned w => cases w <;> decide
  | floating w => cases w <;> decide
  | _ => decide

def name : Ground → String
  | bottom => "┴"
  | top => "┬"
  | void => "void"
  | bool => "bool"
  | code => "code"
  | str => "str"
  | number => "number"
  | int => "int"
  | uint => "uint"
  | float => "float"
  | num w => "num" ++ Nat.repr w.bits
  | signed w => "int" ++ Nat.repr w.bits
  | unsigned w => "uint" ++ Nat.repr w.bits
  | char => "char"
  | char16 => "char16"
  | char32 => "char32"
  | floating w => "float" ++ Nat.repr w.bits

def ofName? (s : String) : Option Ground := all.find? fun g => g.name == s

/-- The edges of the order, from a subtype to a supertype. -/
def edges : List (Ground × Ground) :=
  [void, bool, code, str, number].map (·, top)
    ++ [int, uint, float].map (·, number)
    ++ intWidths.flatMap (fun w => [(num w, number), (signed w, num w), (signed w, int),
      (unsigned w, num w), (unsigned w, uint)])
    ++ [(char, num .w8), (char16, num .w16), (char32, num .w32)]
    ++ floatWidths.map fun w => (floating w, float)

/-- The atoms without a subtype. They sit right above the bottom. -/
def leaves : List Ground :=
  all.filter fun g => g ≠ bottom ∧ ∀ edge ∈ edges, edge.2 ≠ g

def links : List (Ground × Ground) := edges ++ leaves.map (bottom, ·)

/-- The supertypes of an atom, itself included: all that its links lead to. -/
def above : Ground → List Ground
  | bottom => all
  | top => [top]
  | void => [void, top]
  | bool => [bool, top]
  | code => [code, top]
  | str => [str, top]
  | number => [number, top]
  | int => [int, number, top]
  | uint => [uint, number, top]
  | float => [float, number, top]
  | num w => [num w, number, top]
  | signed w => [signed w, num w, int, number, top]
  | unsigned w => [unsigned w, num w, uint, number, top]
  | char => [char, num .w8, number, top]
  | char16 => [char16, num .w16, number, top]
  | char32 => [char32, num .w32, number, top]
  | floating w => [floating w, float, number, top]

def below (g : Ground) : List Ground := all.filter fun h => g ∈ h.above

def toVar (g : Ground) : TypeVar := ⟨g.name, []⟩

end Ground

def TypeVar.ground? (v : TypeVar) : Option Ground :=
  if v.isBase then Ground.ofName? v.base else none

end TypeRecovery
