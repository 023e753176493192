import TypeRecovery.Concrete.OfAtom
import TypeRecovery.Notice
import TypeRecovery.Sketch.Basic

/-! Concrete types read off sketches: functions from arguments and results, pointers from loads
and stores, structures from dereferences at several offsets, and the rest from the bounds. -/
namespace TypeRecovery

/-- The shape of a value. A value that is dereferenced is a pointer. -/
inductive Shape where
  | atom (bounds : Bounds)
  /-- A pointer that is only followed at offset zero, for so many bytes. -/
  | pointer (size : Nat) (target : Shape)
  /-- A pointer to fields by offset and size; fields before its target are left out. -/
  | record (skipped : List TypeVar) (fields : List (Nat × Nat × Shape))

structure Signature where
  ret : Option Shape
  params : List (Option Shape)

namespace Sketch

def boundsOf (s : Sketch) (v : TypeVar) : Bounds :=
  (s.get? v).getD ⟨Ground.bottom.toVar, Ground.top.toVar⟩

/-- All dereferences of `v`, loads before stores, as offset, size and variable. -/
def accesses (s : Sketch) (v : TypeVar) : List (Int × Nat × TypeVar) :=
  (s.children v).flatMap fun access =>
    match access.1 with
    | .load | .store => (s.children access.2).filterMap fun target =>
        match target.1 with
        | .deref size offset => some (offset.toInt, size.toNat, target.2)
        | _ => none
    | _ => []

/-- The dereferences of `v` by offset; the first one at an offset counts. -/
def derefs (s : Sketch) (v : TypeVar) : OrdMap Int (Nat × TypeVar) :=
  (s.accesses v).foldl
    (fun found access => if found.contains access.1 then found else found.insert access.1 access.2)
    ∅

def shapeTo (s : Sketch) : Nat → TypeVar → Shape
  | 0, v => .atom (s.boundsOf v)
  | depth + 1, v =>
    match (s.derefs v).entries with
    | [] => .atom (s.boundsOf v)
    | [(0, size, target)] => .pointer size (s.shapeTo depth target)
    | entries => .record
        ((entries.filter fun entry => entry.1 < 0).map fun entry => entry.2.2)
        ((entries.filter fun entry => 0 ≤ entry.1).map fun entry =>
          (entry.1.toNat, entry.2.1, s.shapeTo depth entry.2.2))

/-- Every dereference leads to a longer path, so depth never exceeds the number of nodes. -/
def shape (s : Sketch) (v : TypeVar) : Shape := s.shapeTo s.nodes.size v

def param? (s : Sketch) (function : TypeVar) (i : Nat) : Option TypeVar :=
  (s.children function).findSome? fun child =>
    match child.1 with
    | .input index => if index.toNat = i then some child.2 else none
    | _ => none

def paramIndices (s : Sketch) (function : TypeVar) : List Nat :=
  (s.children function).filterMap fun child =>
    match child.1 with
    | .input index => some index.toNat
    | _ => none

/-- One more than the greatest argument index, counted in 64 bits. -/
def paramCount (s : Sketch) (function : TypeVar) : Nat :=
  match (s.paramIndices function).max? with
  | some last => (UInt64.ofNat (last + 1)).toNat
  | none => 0

def result? (s : Sketch) (function : TypeVar) : Option TypeVar :=
  (s.children function).findSome? fun child =>
    match child.1 with
    | .output => some child.2
    | _ => none

def signature (s : Sketch) (function : TypeVar) : Signature where
  ret := (s.result? function).map s.shape
  params := (List.range (s.paramCount function)).map fun i =>
    (s.param? function i).map s.shape

end Sketch

structure Target where
  sealedTypes : SealedTypes
  pointerSize : Nat
  registerSize : Nat

/-- One past the last byte of the fields, counted in 64 bits. -/
def extent (fields : List (Nat × Nat × Shape)) : Nat :=
  fields.foldl (fun size field => max size (UInt64.ofNat (field.1 + field.2.1)).toNat) 0

mutual

def Shape.push (target : Target) (arena : Arena) (size : Nat) : Shape → Arena × Handle
  | .atom bounds => arena.pushBounds target.sealedTypes bounds.lower bounds.upper size
  | .pointer size pointee =>
    let (arena, h) := Shape.push target arena size pointee
    arena.push (.pointer (some h) target.pointerSize)
  | .record _ fields =>
    let (arena, pushed) := Shape.pushFields target arena fields
    let (arena, h) := arena.push (.struct none (extent fields) pushed)
    arena.push (.pointer (some h) target.pointerSize)

def Shape.pushFields (target : Target) (arena : Arena) :
    List (Nat × Nat × Shape) → Arena × List Field
  | [] => (arena, [])
  | (offset, size, shape) :: fields =>
    let (arena, h) := Shape.push target arena size shape
    let (arena, pushed) := Shape.pushFields target arena fields
    (arena, ⟨offset, some h⟩ :: pushed)

end

mutual

def Shape.notices : Shape → List Notice
  | .atom _ => []
  | .pointer _ pointee => pointee.notices
  | .record skipped fields => skipped.map .negativeOffset ++ Shape.fieldNotices fields

def Shape.fieldNotices : List (Nat × Nat × Shape) → List Notice
  | [] => []
  | (_, _, shape) :: fields => shape.notices ++ Shape.fieldNotices fields

end

namespace Signature

def pushOption (target : Target) (arena : Arena) : Option Shape → Arena × Option Handle
  | none => (arena, none)
  | some shape =>
    let (arena, h) := Shape.push target arena target.registerSize shape
    (arena, some h)

def pushParams (target : Target) (arena : Arena) :
    List (Option Shape) → Arena × List (Option Handle)
  | [] => (arena, [])
  | param :: params =>
    let (arena, h) := pushOption target arena param
    let (arena, pushed) := pushParams target arena params
    (arena, h :: pushed)

def push (target : Target) (arena : Arena) (signature : Signature) : Arena × Handle :=
  let (arena, ret) := pushOption target arena signature.ret
  let (arena, params) := pushParams target arena signature.params
  arena.push (.function ret params)

def notices (signature : Signature) : List Notice :=
  (signature.ret :: signature.params).flatMap fun shape =>
    match shape with
    | some shape => shape.notices
    | none => []

end Signature

abbrev Sketches := OrdMap TypeVar Sketch

namespace Sketches

/-- The function signatures of the sketches; other sketches are left out. -/
def signatures (sketches : Sketches) : List (TypeVar × Signature) :=
  (sketches.entries.filter fun entry => entry.1.isBase).map fun entry =>
    (entry.1, entry.2.signature entry.1)

def infer (sketches : Sketches) (target : Target) : Inferred :=
  sketches.signatures.foldl (fun inferred entry =>
    let (arena, h) := entry.2.push target inferred.arena
    ⟨arena, inferred.roots.insert entry.1 h⟩) {}

def notices (sketches : Sketches) : List Notice :=
  sketches.signatures.flatMap fun entry => entry.2.notices

end Sketches
end TypeRecovery
