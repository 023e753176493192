import TypeRecovery.Binary.Basic

/-! Inferred types recorded in a module. A concrete node becomes one type node, however often it
is reached, and a cycle of concrete nodes becomes a cycle of type nodes. -/
namespace TypeRecovery

/-- A module being filled, and the type nodes made so far for handles of an arena. -/
structure Recording where
  target : CodeModule
  supply : Supply
  images : OrdMap Handle NodeId := ∅
  notices : List Notice := []

abbrev Recorder := EStateM Error Recording

namespace Recorder

def fresh : Recorder NodeId := fun s =>
  .ok s.supply.fresh.1 { s with supply := s.supply.fresh.2 }

def setImage (h : Handle) (id : NodeId) : Recorder Unit :=
  modify fun s => { s with images := s.images.insert h id }

def setType (id : NodeId) (node : TypeNode) : Recorder Unit :=
  modify fun s => { s with target := { s.target with types := s.target.types.insert id node } }

def setPointee (pointer pointee : NodeId) : Recorder Unit :=
  modify fun s =>
    { s with target := { s.target with types := s.target.types.setPointee pointer pointee } }

def note (notice : Notice) : Recorder Unit :=
  modify fun s => { s with notices := s.notices ++ [notice] }

/-- A node of its own for a reference to nothing known. -/
def addUnknown : Recorder NodeId := do
  let id ← fresh
  setType id (.unknown 0)
  return id

/-- The node of a handle, known before its parts are recorded. -/
def reserve (h : Handle) : Recorder NodeId := do
  let id ← fresh
  setImage h id
  return id

def addNode (h : Handle) (node : TypeNode) : Recorder NodeId := do
  let id ← reserve h
  setType id node
  return id

def origin? (arena : Arena) (table : TypeTable) (ref : Option Handle) : Option NodeId :=
  match ref.bind arena.get? with
  | some (.sealed origin) => if table.contains origin then some origin else none
  | _ => none

def recordFields (go : Option Handle → Recorder NodeId) :
    List Field → Recorder (List (Nat × NodeId))
  | [] => return []
  | field :: rest => do
    let type ← go field.type
    let recorded ← recordFields go rest
    return (field.offset, type) :: recorded

def recordParams (go : Option Handle → Recorder NodeId) :
    List (Option Handle) → Recorder (List (Option NodeId))
  | [] => return []
  | param :: rest => do
    let type ← go param
    let recorded ← recordParams go rest
    return some type :: recorded

/-- Records a handle's node, with `go` for what it refers to. A structure whose last field is
unknown has no size of its own. -/
def recordNode (arena : Arena) (go : Option Handle → Recorder NodeId) (h : Handle) :
    Concrete → Recorder NodeId
  | .void => addNode h .void
  | .bool => addNode h .bool
  | .char width => addNode h (.char width)
  | .int width signed => addNode h (.int width signed)
  | .float width => addNode h (.float width)
  | .pointer target _ => do
    match origin? arena (← get).target.types target with
    | some origin =>
      setImage h origin
      return origin
    | none =>
      let id ← addNode h (.pointer none)
      let pointee ← go target
      setPointee id pointee
      return id
  | .array member length => do
    let id ← reserve h
    let element ← go member
    setType id (.array element length)
    return id
  | .struct _ size fields => do
    let id ← reserve h
    let size := if (fields.getLast?.bind Field.type).isSome then size else 0
    let recorded ← recordFields go fields
    setType id (.struct size recorded)
    return id
  | .function ret params => do
    let id ← reserve h
    let ret ← go ret
    let recorded ← recordParams go params
    setType id (.function (some ret) recorded)
    return id
  | .sealed origin => do
    let s ← get
    if s.target.types.contains origin then
      setImage h origin
      return origin
    else
      note (.foreignSealed origin s.target.name)
      addUnknown
  | .union name members => throw (.unsupportedConcrete (Concrete.union name members).kind)

/-- Records a reference, with `go` for the references of a node that is met for the first time. -/
def recordRef (arena : Arena) (go : Option Handle → Recorder NodeId) :
    Option Handle → Recorder NodeId
  | none => addUnknown
  | some h => do
    match (← get).images.get? h with
    | some id => return id
    | none =>
      match arena.get? h with
      | none => throw (.danglingConcrete h)
      | some node => recordNode arena go h node

def recordTo (arena : Arena) : Nat → Option Handle → Recorder NodeId
  | 0 => recordRef arena fun ref => throw (.danglingConcrete (ref.getD 0))
  | depth + 1 => recordRef arena (recordTo arena depth)

/-- A node is entered once, so depth never exceeds the size of the arena. -/
def record (arena : Arena) (h : Handle) : Recorder NodeId := recordTo arena arena.size (some h)

/-- The functions of a module by name; of two with one name, the later one. -/
def functionsByName (m : CodeModule) : OrdMap String NodeId :=
  OrdMap.ofList (m.functions.map fun f => (m.functionName f, f.id))

def recordRoots (arena : Arena) (functions : OrdMap String NodeId)
    (prototypes : OrdMap NodeId NodeId) : List (TypeVar × Handle) → Recorder (OrdMap NodeId NodeId)
  | [] => return prototypes
  | (root, h) :: rest => do
    let type ← record arena h
    match functions.get? root.text with
    | some function => recordRoots arena functions (prototypes.insert function type) rest
    | none =>
      note (.unmatchedType root (← get).target.name)
      recordRoots arena functions prototypes rest

def recordInferred (inferred : Inferred) : Recorder Unit := do
  let functions := functionsByName (← get).target
  let prototypes ← recordRoots inferred.arena functions ∅ inferred.roots.entries
  modify fun s => { s with target := { s.target with prototypes := prototypes } }

end Recorder
end TypeRecovery
