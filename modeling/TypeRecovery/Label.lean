import TypeRecovery.Text.Decimal
import TypeRecovery.Text.Split

/-! Labels of access paths. A path leads from a function to an argument or its result, and
from a pointer through a load or a store to bytes at an offset. -/
namespace TypeRecovery

inductive Label where
  | input (index : UInt64)
  | output
  | load
  | store
  | deref (size : UInt64) (offset : Int64)
deriving DecidableEq

/-- Why a text is not a type variable. Each reason carries the text it is about. -/
inductive PathError where
  | badIndex (label : String)
  | noOffset (label : String)
  | badSize (label : String)
  | badOffset (label : String)
  | unknownLabel (label : String)
  | badBase (text : String)
deriving DecidableEq

def PathError.message : PathError → String
  | .badIndex label => "bad argument index in label `" ++ label ++ "`"
  | .noOffset label => "dereference label `" ++ label ++ "` lacks an offset"
  | .badSize label => "bad dereference size in label `" ++ label ++ "`"
  | .badOffset label => "bad dereference offset in label `" ++ label ++ "`"
  | .unknownLabel label => "unknown access path label `" ++ label ++ "`"
  | .badBase text => "bad base identifier in `" ++ text ++ "`"

namespace Label

/-- The place of a label in the order of labels: its kind, then its numbers. -/
def key : Label → List Int
  | .input index => [0, index.toNat]
  | .output => [1]
  | .load => [2]
  | .store => [3]
  | .deref size offset => [4, size.toNat, offset.toInt]

instance : Ord Label := ⟨compareOn key⟩

theorem key_injective {a b : Label} (same : a.key = b.key) : a = b := by
  cases a <;> cases b <;> simp_all [key]
  · rename_i i j
    exact UInt64.toNat_inj.1 (by omega)
  · rename_i s o s' o'
    exact ⟨UInt64.toNat_inj.1 (by omega), Int64.toInt_inj.1 same.2⟩

instance : Std.TransOrd Label := inferInstanceAs (Std.TransCmp (compareOn key))

instance : Std.LawfulEqOrd Label where
  eq_of_compare {a b} same :=
    key_injective (Std.LawfulEqCmp.eq_of_compare (show compare a.key b.key = .eq from same))

def text : Label → String
  | .input index => "in_" ++ Text.wordText index
  | .output => "out"
  | .load => "load"
  | .store => "store"
  | .deref size offset => "σ" ++ Text.wordText size ++ "@" ++ Text.offsetText offset

def readDeref (whole : List Char) (numbers : List Char) : Except PathError Label :=
  match Text.splitFirst? '@' numbers with
  | none => .error (.noOffset (String.ofList whole))
  | some (size, offset) =>
    match Text.word? size with
    | none => .error (.badSize (String.ofList whole))
    | some size =>
      match Text.offset? offset with
      | none => .error (.badOffset (String.ofList whole))
      | some offset => .ok (.deref size offset)

def read (s : List Char) : Except PathError Label :=
  if s = ['o', 'u', 't'] then .ok .output
  else if s = ['l', 'o', 'a', 'd'] then .ok .load
  else if s = ['s', 't', 'o', 'r', 'e'] then .ok .store
  else
    match Text.afterStart? ['i', 'n', '_'] s with
    | some index =>
      match Text.word? index with
      | some index => .ok (.input index)
      | none => .error (.badIndex (String.ofList s))
    | none =>
      match Text.afterStart? ['σ'] s with
      | some numbers => readDeref s numbers
      | none => .error (.unknownLabel (String.ofList s))

def ofText (s : String) : Except PathError Label := read s.toList

end Label
end TypeRecovery
