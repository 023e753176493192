import TypeRecovery.Binary.NodeId
import TypeRecovery.Ordered.Map
import TypeRecovery.TypeVar

/-! C-like types as nodes of an arena. Nodes refer to each other by handle, so types may be
shared and recursive. -/
namespace TypeRecovery

/-- A position in an arena. A handle past the end refers to nothing. -/
abbrev Handle := Nat

structure Field where
  offset : Nat
  type : Option Handle
deriving DecidableEq

inductive Concrete where
  | void
  | bool
  | char (width : Nat)
  | int (width : Nat) (signed : Bool)
  | float (width : Nat)
  | pointer (target : Option Handle) (size : Nat)
  | array (member : Option Handle) (length : Nat)
  | struct (name : Option String) (size : Nat) (fields : List Field)
  | function (ret : Option Handle) (params : List (Option Handle))
  | union (name : Option String) (members : List (Option Handle))
  /-- A type that is not taken apart, known by its node in a type table. -/
  | sealed (origin : NodeId)
deriving DecidableEq

namespace Concrete

def kind : Concrete → String
  | void => "void"
  | bool => "bool"
  | char _ => "char"
  | int _ _ => "int"
  | float _ => "float"
  | pointer _ _ => "pointer"
  | array _ _ => "array"
  | struct _ _ _ => "struct"
  | function _ _ => "function"
  | union _ _ => "union"
  | sealed _ => "opaque"

def sealedName (origin : NodeId) : String := "opaque_" ++ origin.text

def scalarName? : Concrete → Option String
  | void => some "void"
  | bool => some "bool"
  | char 1 => some "char"
  | char 4 => some "wchar_t"
  | char width => some ("char" ++ Text.bitsText width ++ "_t")
  | int width signed => some ((if signed then "" else "u") ++ "int" ++ Text.bitsText width ++ "_t")
  | float 4 => some "float"
  | float 8 => some "double"
  | float 10 => some "long double"
  | float 16 => some "long double"
  | float width => some ("float" ++ Text.bitsText width ++ "_t")
  | sealed origin => some (sealedName origin)
  | pointer _ _ | array _ _ | struct _ _ _ | function _ _ | union _ _ => none

def refs : Concrete → List (Option Handle)
  | pointer target _ => [target]
  | array member _ => [member]
  | struct _ _ fields => fields.map Field.type
  | function ret params => ret :: params
  | union _ members => members
  | _ => []

end Concrete

structure Arena where
  nodes : Array Concrete := #[]
deriving DecidableEq

namespace Arena

def size (a : Arena) : Nat := a.nodes.size

def get? (a : Arena) (h : Handle) : Option Concrete := a.nodes[h]?

def refs (a : Arena) (h : Handle) : List Handle :=
  match a.get? h with
  | none => []
  | some node => node.refs.filterMap id

/-- Every insertion makes a node of its own, at the end. -/
def push (a : Arena) (node : Concrete) : Arena × Handle := (⟨a.nodes.push node⟩, a.nodes.size)

/-- Fills in the target of a pointer; other nodes stay as they are. -/
def setTarget (a : Arena) (pointer target : Handle) : Arena :=
  match a.get? pointer with
  | some (.pointer _ size) => ⟨a.nodes.setIfInBounds pointer (.pointer (some target) size)⟩
  | _ => a

end Arena

structure Inferred where
  arena : Arena := {}
  roots : OrdMap TypeVar Handle := ∅

inductive FunctionType where
  | unknown
  | dangling (handle : Handle)
  | found (handle : Handle) (node : Concrete)

def Inferred.function (inferred : Inferred) (name : String) : FunctionType :=
  match inferred.roots.get? ⟨name, []⟩ with
  | none => .unknown
  | some handle =>
    match inferred.arena.get? handle with
    | none => .dangling handle
    | some node => .found handle node

end TypeRecovery
