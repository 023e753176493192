import TypeRecovery.Error
import TypeRecovery.Inventory
import TypeRecovery.Ordered.Map

/-! Types as a binary records them: nodes of a table that refer to each other by identifier,
possibly in cycles. -/
namespace TypeRecovery

inductive TypeNode where
  | void
  | bool
  | char (size : Nat)
  | int (size : Nat) (signed : Bool)
  | float (size : Nat)
  /-- A type of which only the size is known. -/
  | unknown (size : Nat)
  | pointer (pointee : Option NodeId)
  | array (element : NodeId) (count : Nat)
  | struct (size : Nat) (fields : List (Nat × NodeId))
  | function (ret : Option NodeId) (params : List (Option NodeId))
deriving DecidableEq

def TypeNode.kind : TypeNode → String
  | void => "void"
  | bool => "bool"
  | char _ => "char"
  | int _ _ => "int"
  | float _ => "float"
  | unknown _ => "unknown"
  | pointer _ => "pointer"
  | array _ _ => "array"
  | struct _ _ => "struct"
  | function _ _ => "function"

abbrev TypeTable := OrdMap NodeId TypeNode

namespace TypeTable

/-- Fills in the pointee of a pointer; other nodes stay as they are. -/
def setPointee (table : TypeTable) (pointer pointee : NodeId) : TypeTable :=
  match table.get? pointer with
  | some (.pointer _) => table.insert pointer (.pointer (some pointee))
  | _ => table

/-- The size of a type, entering only types of an inventory: an array that contains itself has
no size. -/
def sizeWithin (table : TypeTable) (pointerSize : Nat) (idle : List NodeId) (id : NodeId) :
    Except Error Nat :=
  match table.get? id with
  | none => .error (.danglingType id)
  | some .void => .error (.unsizedType id)
  | some (.function _ _) => .error (.unsizedType id)
  | some .bool => .ok 1
  | some (.char size) => .ok size
  | some (.int size _) => .ok size
  | some (.float size) => .ok size
  | some (.unknown size) => .ok size
  | some (.struct size _) => .ok size
  | some (.pointer _) => .ok pointerSize
  | some (.array element count) =>
    if _ : id ∈ idle then
      (table.sizeWithin pointerSize (idle.erase id) element).map (· * count)
    else .error (.unsizedType id)
termination_by idle.length
decreasing_by exact length_erase_lt ‹_›

def sizeOf (table : TypeTable) (pointerSize : Nat) (id : NodeId) : Except Error Nat :=
  table.sizeWithin pointerSize table.keys id

end TypeTable
end TypeRecovery
