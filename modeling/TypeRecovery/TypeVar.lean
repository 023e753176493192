import TypeRecovery.Label
import TypeRecovery.Ordered.Lex
import TypeRecovery.Text.Space

/-! Type variables: a base identifier, naming a function or an atom of the lattice, followed by
an access path. -/
namespace TypeRecovery

structure TypeVar where
  base : String
  path : List Label := []
deriving DecidableEq

namespace TypeVar

/-- By base, then by path; a path comes before its extensions. -/
instance : Ord TypeVar := ⟨compareLex (compareOn base) (compareOn path)⟩

instance : Std.TransOrd TypeVar :=
  inferInstanceAs (Std.TransCmp (compareLex (compareOn base) (compareOn path)))

instance : Std.LawfulEqOrd TypeVar where
  eq_of_compare {a b} same := by
    obtain ⟨_, _⟩ := keys_eq_of_compareLex same
    cases a
    cases b
    congr

def isBase (v : TypeVar) : Bool := v.path.isEmpty

def extend (v : TypeVar) (label : Label) : TypeVar := ⟨v.base, v.path ++ [label]⟩

def parent? (v : TypeVar) : Option TypeVar :=
  if v.path.isEmpty then none else some ⟨v.base, v.path.dropLast⟩

def lastLabel? (v : TypeVar) : Option Label := v.path.getLast?

def ancestry (v : TypeVar) : List TypeVar :=
  (List.range (v.path.length + 1)).map fun n => ⟨v.base, v.path.take n⟩

def isAncestorOf (v w : TypeVar) : Bool :=
  v.base == w.base && v.path.length < w.path.length && v.path.isPrefixOf w.path

def text (v : TypeVar) : String :=
  v.path.foldl (fun s label => s ++ "." ++ label.text) v.base

/-- Labels are read from left to right, and the first bad one is reported. -/
def readPath : List (List Char) → Except PathError (List Label)
  | [] => .ok []
  | part :: parts =>
    match Label.read part with
    | .error e => .error e
    | .ok label => (readPath parts).map (label :: ·)

def read (s : List Char) : Except PathError TypeVar :=
  let body := Text.trim s
  match Text.split '.' body with
  | [] => .error (.badBase (String.ofList body))
  | base :: parts =>
    if base.isEmpty || base.any Text.isSpace then .error (.badBase (String.ofList body))
    else (readPath parts).map fun path => ⟨String.ofList base, path⟩

def ofText (s : String) : Except PathError TypeVar := read s.toList

end TypeVar
end TypeRecovery
