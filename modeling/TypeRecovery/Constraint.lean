import TypeRecovery.TypeVar
import TypeRecovery.Ordered.Set

/-! Subtype constraints between type variables, and sets of them. -/
namespace TypeRecovery

/-- The type of `lower` is a subtype of the type of `upper`. -/
structure Constraint where
  lower : TypeVar
  upper : TypeVar
deriving DecidableEq

inductive ConstraintFault where
  | noSymbol
  | manySymbols
  | badSide (cause : PathError)
deriving DecidableEq

structure ConstraintError where
  text : String
  fault : ConstraintFault
deriving DecidableEq

def ConstraintFault.message : ConstraintFault → String
  | .noSymbol => "missing `⊑`"
  | .manySymbols => "more than one `⊑`"
  | .badSide cause => cause.message

def ConstraintError.message (e : ConstraintError) : String :=
  "malformed constraint `" ++ e.text ++ "`: " ++ e.fault.message

namespace Constraint

instance : Ord Constraint := ⟨compareLex (compareOn lower) (compareOn upper)⟩

instance : Std.TransOrd Constraint :=
  inferInstanceAs (Std.TransCmp (compareLex (compareOn lower) (compareOn upper)))

instance : Std.LawfulEqOrd Constraint where
  eq_of_compare {a b} same := by
    obtain ⟨_, _⟩ := keys_eq_of_compareLex same
    cases a
    cases b
    congr

def text (c : Constraint) : String := c.lower.text ++ " ⊑ " ++ c.upper.text

/-- The lower side is read before the upper one. -/
def readSides (lower upper : List Char) : Except ConstraintFault Constraint :=
  match TypeVar.read lower with
  | .error e => .error (.badSide e)
  | .ok lower =>
    match TypeVar.read upper with
    | .error e => .error (.badSide e)
    | .ok upper => .ok ⟨lower, upper⟩

def read (s : List Char) : Except ConstraintFault Constraint :=
  match Text.splitFirst? '⊑' s with
  | none => .error .noSymbol
  | some (lower, upper) =>
    if '⊑' ∈ upper then .error .manySymbols else readSides lower upper

def ofText (s : String) : Except ConstraintError Constraint :=
  (read s.toList).mapError fun fault => ⟨s, fault⟩

end Constraint

abbrev ConstraintSet := OrdSet Constraint

def ConstraintSet.text (cs : ConstraintSet) : String :=
  cs.toList.foldl (fun s c => s ++ c.text ++ "\n") ""

end TypeRecovery
