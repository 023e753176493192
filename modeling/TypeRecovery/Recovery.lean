import TypeRecovery.Binary.Facts
import TypeRecovery.Prototype.Reading
import TypeRecovery.Prototype.Recording
import TypeRecovery.Rules.Engine
import TypeRecovery.Rules.Results
import TypeRecovery.Sketch.Drawing
import TypeRecovery.Solver.Basic

/-! A recovery run: facts about a binary go to the rule engine, its answers and the recorded
prototypes to the solver, and the types read off the solution back into the binary. -/
namespace TypeRecovery

structure Recovery where
  binary : Binary
  supply : Supply
  calls : CallGraph
  lattice : AtomLattice := {}
  sealedTypes : SealedTypes := ∅
  /-- Facts of earlier runs, if they are kept. -/
  keptFacts : Option Folder := none
  /-- The relations that engines were given. -/
  seenFacts : OrdSet String := ∅
  drawings : Folder := ∅
  notices : List Notice := []

abbrev Run := EStateM Error Recovery

structure Inspection where
  enabled : Bool := false
  /-- The comments to keep, by category. -/
  categories : Option (List String) := none

namespace Recovery

def start (binary : Binary) (supply : Supply) (keepFacts : Bool) : Recovery where
  binary := binary
  supply := supply
  calls := binary.callGraph
  keptFacts := if keepFacts then some ∅ else none
  notices := binary.callNotices

def note (notices : List Notice) : Run Unit :=
  modify fun r => { r with notices := r.notices ++ notices }

def adopt {α : Type} (result : Except Error α) (notices : List Notice) : Run α := do
  note notices
  match result with
  | .ok a => return a
  | .error e => throw e

/-- Writes the facts into the folder that is kept, or else into a new one. -/
def extractFacts : Run Folder := fun r =>
  let kept (folder : Folder) : Recovery := { r with keptFacts := r.keptFacts.map fun _ => folder }
  match Facts.all r.binary (r.keptFacts.getD ∅) with
  | .ok _ folder => .ok folder (kept folder)
  | .error e folder => .error e (kept folder)

def runRules (engine : Engine) : Run Relations := do
  let folder ← extractFacts
  modify fun r => { r with seenFacts := r.seenFacts.insertAll (folder.keys.map Folder.stem) }
  adopt (engine folder [Relations.constraintRelation, Relations.commentRelation]) []

def commentOutcomes (inspection : Inspection) (relations : Relations) :
    List (Except Error (Option (Nat × String))) :=
  match inspection.categories with
  | none => []
  | some categories => ((relations.get? Relations.commentRelation).getD []).map
      (Relations.commentOf categories)

/-- The comments for the first module; there are none without modules. -/
def readComments (inspection : Inspection) (relations : Relations) :
    Run (OrdMap Position String) := do
  match (← get).binary.modules with
  | [] => return ∅
  | m :: _ =>
    let outcomes := commentOutcomes inspection relations
    adopt (Relations.comments m outcomes) (Relations.commentNotices m outcomes)

def setComments (comments : OrdMap Position String) (b : Binary) : Binary :=
  match b.modules with
  | [] => b
  | m :: rest => { b with modules := { m with comments := comments } :: rest }

/-- The constraints that the rules found. Under inspection, the comments of the first module are
replaced, but only once all rows have been read. -/
def readResults (inspection : Inspection) (relations : Relations) :
    Run (OrdMap String ConstraintSet) := do
  let comments ← readComments inspection relations
  let rows := (relations.get? Relations.constraintRelation).getD []
  let bad := rows.find? fun row => (Relations.constraintOf row).toOption.isNone
  let constraints ← adopt (Relations.constraints rows)
    ((bad.map Relations.constraintNotices).getD [])
  if inspection.enabled then
    modify fun r => { r with binary := setComments comments r.binary }
  return constraints

def mergeFunction (settings : Settings) (all : OrdMap String ConstraintSet)
    (entry : String × ConstraintSet) : OrdMap String ConstraintSet :=
  match all.get? entry.1 with
  | none => all.insert entry.1 entry.2
  | some found =>
    if settings.annotationsOverride then all.insert entry.1 entry.2
    else all.insert entry.1 (found.union entry.2)

def mergeNotices (settings : Settings) (all : OrdMap String ConstraintSet)
    (annotations : OrdMap String ConstraintSet) : List Notice :=
  if settings.annotationsOverride then
    (annotations.keys.filter all.contains).map .replacedConstraints
  else []

/-- Reads the prototypes of a module. Returned with their constraints are the types they seal. -/
def readModule (m : CodeModule) : Run (OrdMap String ConstraintSet × SealedTypes) := do
  match m.readPrototypes {} with
  | .ok annotations s =>
    note s.notices
    return (annotations, s.sealedTypes)
  | .error e s =>
    note s.notices
    throw e

def mergeModules (settings : Settings) (all : OrdMap String ConstraintSet) (found : SealedTypes) :
    List CodeModule → Run (OrdMap String ConstraintSet × SealedTypes)
  | [] => return (all, found)
  | m :: rest => do
    let (annotations, sealedTypes) ← readModule m
    note (mergeNotices settings all annotations)
    mergeModules settings (annotations.entries.foldl (mergeFunction settings) all)
      (found.insertAll sealedTypes.entries) rest

def readAnnotations (settings : Settings) (constraints : OrdMap String ConstraintSet) :
    Run (OrdMap String ConstraintSet) := do
  if !settings.readAnnotations then return constraints
  let (merged, found) ← mergeModules settings constraints ∅ (← get).binary.modules
  note (AtomLattice.extendNotices found.keys)
  modify fun r => { r with
    lattice := AtomLattice.extend {} found.keys
    sealedTypes := found }
  return merged

def drawSketch (entry : TypeVar × Sketch) : Run Unit := do
  if entry.2.nodes.isEmpty then return
  let r ← get
  let drawn := do
    let drawing ← (match entry.2.draw entry.1 with
      | .ok drawing => pure drawing
      | .error e => throw e : Writing Drawing)
    Folder.write (entry.1.base ++ ".dot") drawing.text
  match drawn r.drawings with
  | .ok _ folder => set { r with drawings := folder }
  | .error e _ => note [.undrawn entry.1 e]

def solve (settings : Settings) (engine : Engine) (solver : Solver) (inspection : Inspection) :
    Run Solution := do
  let relations ← runRules engine
  let generated ← readResults inspection relations
  let constraints ← readAnnotations settings generated
  let r ← get
  let solution ← adopt (solver ⟨r.lattice, constraints, r.calls⟩) []
  if inspection.enabled && settings.drawSketches then
    solution.sketches.entries.forM drawSketch
  return solution

def infer (settings : Settings) (engine : Engine) (solver : Solver) (inspection : Inspection) :
    Run Inferred := do
  match (← get).binary.modules with
  | [] =>
    note [.noModules]
    return {}
  | m :: _ =>
    let sizes ← adopt m.sizes []
    let solution ← solve settings engine solver inspection
    note solution.sketches.notices
    return solution.sketches.infer ⟨(← get).sealedTypes, sizes.pointer, sizes.register⟩

/-- Records inferred types in modules one after the other; a failure leaves the later modules as
they are. -/
def recordModules (inferred : Inferred) (supply : Supply) :
    List CodeModule → Except Error Unit × List CodeModule × Supply × List Notice
  | [] => (.ok (), [], supply, [])
  | m :: rest =>
    match Recorder.recordInferred inferred { target := m, supply := supply } with
    | .error e s => (.error e, s.target :: rest, s.supply, s.notices)
    | .ok _ s =>
      let (result, modules, supply, notices) := recordModules inferred s.supply rest
      (result, s.target :: modules, supply, s.notices ++ notices)

def write (inferred : Inferred) : Run Unit := fun r =>
  let (result, modules, supply, notices) := recordModules inferred r.supply r.binary.modules
  let after := { r with
    binary := { r.binary with modules := modules }
    supply := supply
    notices := r.notices ++ notices }
  match result with
  | .ok _ => .ok () after
  | .error e => .error e after

end Recovery
end TypeRecovery
