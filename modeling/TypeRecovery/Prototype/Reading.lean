import TypeRecovery.Binary.Basic

/-! Recorded prototypes as constraints. Each argument is bounded from above and each result from
below by its recorded type; pointers are followed along access paths. A type without contents to
describe is sealed: an atom named after the pointer to it stands for it. -/
namespace TypeRecovery

/-- The side on which a variable stands in its constraint. -/
inductive Side where
  | left
  | right
deriving DecidableEq

namespace Side

def order (side : Side) (about atom : TypeVar) : Constraint :=
  match side with
  | left => ⟨about, atom⟩
  | right => ⟨atom, about⟩

/-- Arguments are read through their pointers, results are written through them. -/
def access : Side → Label
  | left => .load
  | right => .store

end Side

def TypeNode.atom? : TypeNode → Option String
  | int size signed => some ((if signed then "" else "u") ++ "int" ++ Text.bitsText size)
  | float size => some ("float" ++ Text.bitsText size)
  | char 1 => some "char"
  | char size => some ("char" ++ Text.bitsText size)
  | void => some "void"
  | bool => some "bool"
  | _ => none

structure Reading where
  /-- The pointers being followed, the last one first. -/
  following : List NodeId := []
  /-- The pointers found to be sealed. -/
  sealedPointers : OrdSet NodeId := ∅
  notices : List Notice := []

namespace Reading

def sealedAtom (pointer : NodeId) : TypeVar := ⟨Concrete.sealedName pointer, []⟩

def sealedTypes (s : Reading) : OrdMap TypeVar NodeId :=
  OrdMap.ofList (s.sealedPointers.toList.map fun pointer => (sealedAtom pointer, pointer))

end Reading

/-- Reading work; what was found sealed before a failure stays. -/
abbrev Reader := EStateM Error Reading

namespace Reader

def note (notice : Notice) : Reader Unit :=
  modify fun s => { s with notices := s.notices ++ [notice] }

def readSealed (side : Side) (about : TypeVar) (pointer : NodeId) : Reader (List Constraint) := do
  modify fun s => { s with sealedPointers := s.sealedPointers.insert pointer }
  return [side.order about (Reading.sealedAtom pointer)]

/-- Work done while a pointer is followed, which ends with the work, also if it fails. Nothing
more is found by following a pointer within itself. -/
def whileFollowing (pointer : NodeId) (work : Reader (List Constraint)) :
    Reader (List Constraint) := fun s =>
  if pointer ∈ s.following then .ok [] s
  else
    match work { s with following := pointer :: s.following } with
    | .ok found t => .ok found { t with following := t.following.erase pointer }
    | .error e t => .error e { t with following := t.following.erase pointer }

def collect {α : Type} (part : α → Reader (List Constraint)) : List α → Reader (List Constraint)
  | [] => return []
  | a :: rest => do
    let found ← part a
    let more ← collect part rest
    return found ++ more

end Reader

namespace CodeModule
open Reader

def typeSize (m : CodeModule) (id : NodeId) : Except Error Nat :=
  match m.sizes with
  | .error e => .error e
  | .ok sizes => m.types.sizeOf sizes.pointer id

def reached (m : CodeModule) (side : Side) (about : TypeVar) (offset : Nat) (id : NodeId) :
    Except Error TypeVar :=
  (m.typeSize id).map fun size =>
    (about.extend side.access).extend (.deref (UInt64.ofNat size) (Int64.ofNat offset))

def readPart (m : CodeModule) (go : Side → TypeVar → NodeId → Reader (List Constraint))
    (side : Side) (about : TypeVar) (part : Nat × NodeId) : Reader (List Constraint) :=
  match m.reached side about part.1 part.2 with
  | .error e => throw e
  | .ok v => go side v part.2

def readPointee (m : CodeModule) (go : Side → TypeVar → NodeId → Reader (List Constraint))
    (side : Side) (about : TypeVar) (pointer pointee : NodeId) : Reader (List Constraint) :=
  match m.types.get? pointee with
  | none => throw (.danglingType pointee)
  | some .void => readSealed side about pointer
  | some (.function _ _) => readSealed side about pointer
  | some (.struct _ []) => readSealed side about pointer
  | some (.struct _ fields) => collect (m.readPart go side about) fields
  | some _ => m.readPart go side about (0, pointee)

/-- Reads a type, with `go` for the types that a pointer leads to. Arrays and structures are
described through pointers only, and functions not at all. -/
def readType (m : CodeModule) (go : Side → TypeVar → NodeId → Reader (List Constraint))
    (side : Side) (about : TypeVar) (id : NodeId) : Reader (List Constraint) :=
  match m.types.get? id with
  | none => throw (.danglingType id)
  | some (.unknown _) => return []
  | some (.array element count) =>
    throw (.byValueAggregate (TypeNode.array element count).kind id)
  | some (.struct size fields) =>
    throw (.byValueAggregate (TypeNode.struct size fields).kind id)
  | some (.function ret params) => throw (.undescribable (TypeNode.function ret params).kind id)
  | some (.pointer none) => readSealed side about id
  | some (.pointer (some pointee)) =>
    whileFollowing id (m.readPointee go side about id pointee)
  | some scalar =>
    match scalar.atom? with
    | some atom => return [side.order about ⟨atom, []⟩]
    | none => return []

def readTo (m : CodeModule) : Nat → Side → TypeVar → NodeId → Reader (List Constraint)
  | 0 => m.readType fun _ _ _ => return []
  | depth + 1 => m.readType (m.readTo depth)

/-- A pointer is not followed within itself, so depth never exceeds the number of types. -/
def readWhole (m : CodeModule) (side : Side) (about : TypeVar) (id : NodeId) :
    Reader (List Constraint) :=
  m.readTo m.types.size side about id

def readSlot (m : CodeModule) (name : String) (side : Side) (slot : Label × Option NodeId) :
    Reader (List Constraint) :=
  match slot.2 with
  | some id => m.readWhole side ⟨name, [slot.1]⟩ id
  | none => return []

def readPrototype (m : CodeModule) (name : String) (ret : Option NodeId)
    (params : List (Option NodeId)) : Reader ConstraintSet := do
  let inputs ← collect (m.readSlot name .left)
    (params.mapIdx fun i param => (.input (UInt64.ofNat i), param))
  let output ← m.readSlot name .right (.output, ret)
  return OrdSet.ofList (inputs ++ output)

/-- The name and the constraints of a function. There are none for a function without a usable
prototype. -/
def readFunction (m : CodeModule) (function : NodeId) :
    Reader (Option (String × ConstraintSet)) :=
  match m.prototypes.get? function with
  | none => return none
  | some type =>
    match m.function? function with
    | none => do
      note (.unknownFunction function)
      return none
    | some f =>
      let name := m.functionName f
      match m.types.get? type with
      | some (.function ret params) => do
        let constraints ← m.readPrototype name ret params
        return some (name, constraints)
      | other => do
        note (.malformedPrototype name type ((other.map TypeNode.kind).getD "missing"))
        return none

def readEach (m : CodeModule) (s : Reading) :
    List NodeId → List (Except Error (Option (String × ConstraintSet))) × Reading
  | [] => ([], s)
  | function :: rest =>
    match m.readFunction function s with
    | .ok found s =>
      let (outcomes, s) := m.readEach s rest
      (.ok found :: outcomes, s)
    | .error e s =>
      let (outcomes, s) := m.readEach s rest
      (.error e :: outcomes, s)

/-- Failures that concern a single prototype only. -/
def isPassedOver : Error → Bool
  | .danglingType _ => true
  | .unsizedType _ => true
  | _ => false

/-- Adds the constraints of functions one by one, up to the first failure that is not passed
over. -/
def readInto (m : CodeModule) (all : OrdMap String ConstraintSet) :
    List NodeId → Reader (OrdMap String ConstraintSet)
  | [] => return all
  | function :: rest => fun s =>
    match m.readFunction function s with
    | .ok none s => m.readInto all rest s
    | .ok (some (name, constraints)) s => m.readInto (all.insert name constraints) rest s
    | .error e s =>
      if isPassedOver e then
        m.readInto all rest { s with notices := s.notices ++ [.skippedPrototype function e] }
      else .error e s

def readPrototypes (m : CodeModule) : Reader (OrdMap String ConstraintSet) :=
  m.readInto ∅ m.prototypes.keys

end CodeModule
end TypeRecovery
