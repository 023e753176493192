import TypeRecovery.Proofs.Recovery.Rerun

/-! Sealed types after the prototypes of all modules have been read. Whatever constraint names the
atom of a sealed type, the type was found in the module of the constraint, and stays found while
other functions and modules are read. An atom leads back to its type, since no two types have the
same one. -/
namespace TypeRecovery

def Constraint.Mentions (c : Constraint) (v : TypeVar) : Prop := c.lower = v ∨ c.upper = v

theorem Side.order_mentions (side : Side) (about atom v : TypeVar) :
    (side.order about atom).Mentions v ↔ about = v ∨ atom = v := by
  cases side with
  | left => exact Iff.rfl
  | right => exact or_comm

theorem TypeNode.IsNamed.ne_sealedAtom {node : TypeNode} {name : String} (named : node.IsNamed name)
    (p : NodeId) : (⟨name, []⟩ : TypeVar) ≠ Reading.sealedAtom p := by
  intro same
  have starts := congrArg (fun v => v.base.toList.head?) same
  rw [Reading.sealedAtom, Concrete.sealedName, String.toList_append] at starts
  cases named with
  | void | bool | char => exact absurd starts (by simp)
  | signed size | unsigned size | float size | wide =>
    rw [String.toList_append] at starts
    simp at starts

inductive TypeNode.Hollow : TypeNode → Prop where
  | void : Hollow .void
  | function (ret : Option NodeId) (params : List (Option NodeId)) : Hollow (.function ret params)
  | struct (size : Nat) : Hollow (.struct size [])

private theorem TypeNode.hollow_of_parts {node : TypeNode} {id : NodeId}
    (none : node.parts id = []) :
    node.Hollow := by
  cases node with
  | void => exact .void
  | function ret params => exact .function ret params
  | struct size fields =>
    obtain rfl : fields = [] := none
    exact .struct size
  | _ => contradiction

theorem TypeTable.Whole.exists_pointer {types : TypeTable} {p : NodeId} (whole : types.Whole p) :
    ∃ target, types.get? p = some (.pointer target) ∧
      ∀ id, target = some id → ∃ node, types.get? id = some node ∧ node.Hollow := by
  cases whole with
  | bare found => exact ⟨none, found, fun id same => nomatch same⟩
  | @hollow target node found present hollow =>
    refine ⟨some target, found, fun id same => ?_⟩
    obtain rfl := Option.some.inj same
    exact ⟨node, present, TypeNode.hollow_of_parts hollow⟩

namespace CodeModule
variable {m : CodeModule} {side : Side} {c : Constraint} {p : NodeId}

theorem Step.path_ne_nil {place next : Waypoint} (step : m.Step side place next) :
    next.about.path ≠ [] := by
  cases step
  simp [Side.reach, TypeVar.extend]

theorem Start.path_ne_nil {name : String} {ret : Option NodeId} {params : List (Option NodeId)}
    {start : Waypoint} (starts : Start name ret params side start) : start.about.path ≠ [] := by
  cases starts <;> exact List.cons_ne_nil _ _

theorem Yields.seals {place : Waypoint} (yields : m.Yields side place c)
    (inner : place.about.path ≠ []) (mentions : c.Mentions (Reading.sealedAtom p)) :
    place.type = p ∧ m.Seals place := by
  have apart : place.about ≠ Reading.sealedAtom p := by
    intro same
    exact inner (congrArg TypeVar.path same)
  cases yields with
  | scalar found named =>
    rw [Side.order_mentions] at mentions
    exact absurd (mentions.resolve_left apart) (named.ne_sealedAtom p)
  | pointer whole =>
    rw [Side.order_mentions] at mentions
    exact ⟨Reading.sealedAtom_injective (mentions.resolve_left apart), whole⟩

/-- The variables of a function are no atoms, not even if the function is named like one. -/
theorem seals_of_finds {name : String} {ret : Option NodeId} {params : List (Option NodeId)}
    (found : (m.prototypeReport name ret params).finds c)
    (mentions : c.Mentions (Reading.sealedAtom p)) :
    (m.prototypeReport name ret params).seals p := by
  obtain ⟨side, start, starts, place, walk, yields⟩ := found
  have inner : place.about.path ≠ [] := by
    rcases walk.cases_tail with rfl | ⟨_, _, last⟩
    · exact starts.path_ne_nil
    · exact last.path_ne_nil
  exact ⟨side, start, starts, place, walk, yields.seals inner mentions⟩

section
variable {function : NodeId} {name : String} {set : ConstraintSet}
  (told : m.told? function = some (name, set)) (inside : c ∈ set)
  (mentions : c.Mentions (Reading.sealedAtom p))
include told inside mentions

theorem Prototyped.seals {own : String} {ret : Option NodeId} {params : List (Option NodeId)}
    (given : m.Prototyped function own ret params) :
    (m.prototypeReport own ret params).seals p := by
  rcases told?_of_prototyped given with ⟨set', told', _, members⟩ | ⟨silent, _⟩
  · obtain ⟨rfl, rfl⟩ := Prod.mk.inj (Option.some.inj (told.symm.trans told'))
    exact seals_of_finds ((members c).mp inside) mentions
  · rw [silent] at told
    contradiction

private theorem whole_of_told? : m.types.Whole p := by
  obtain ⟨ret, params, given, _⟩ := told?_eq_some_iff.mp told
  obtain ⟨side, start, _, place, _, rfl, sealing⟩ := given.seals told inside mentions
  exact sealing.whole

end

/-- From one state to another all is registered that some functions tell about sealed types, and
nothing is forgotten. -/
structure Registers (m : CodeModule) (functions : List NodeId) (s t : Reading) : Prop where
  idle : t.following = []
  grown : ∀ p ∈ s.sealedPointers, p ∈ t.sealedPointers
  told : ∀ function ∈ functions, ∀ name set, m.told? function = some (name, set) →
    ∀ c ∈ set, ∀ p, c.Mentions (Reading.sealedAtom p) → p ∈ t.sealedPointers

theorem Registers.append {functions more : List NodeId} {s t u : Reading}
    (first : m.Registers functions s t) (later : m.Registers more t u) :
    m.Registers (functions ++ more) s u := by
  refine ⟨later.idle, fun p inside => later.grown p (first.grown p inside), ?_⟩
  intro function listed name set told c inside p mentions
  rcases List.mem_append.mp listed with early | late
  · exact later.grown p (first.told function early name set told c inside p mentions)
  · exact later.told function late name set told c inside p mentions

private theorem readFunction_registers (function : NodeId) {s : Reading} (idle : s.following = []) :
    TypeRecovery.Ends (m.readFunction function) s (fun _ t => m.Registers [function] s t)
      (m.Registers [function] s) := by
  unfold TypeRecovery.Ends
  obtain ⟨own, ret, params, outcome, given, covered, read⟩ | ⟨silent, notices, read⟩ :=
    readFunction_covers (m := m) function idle
  · rw [read]
    cases covered with
    | ok kept sound exact sealing =>
      refine ⟨kept.trans idle, fun p inside => (sealing p).mpr (.inl inside), ?_⟩
      intro other listed name set told c inside p mentions
      obtain rfl := List.mem_singleton.mp listed
      exact (sealing p).mpr (.inr (given.seals told inside mentions))
    | error kept faulty grown sealing =>
      refine ⟨kept.trans idle, grown, ?_⟩
      intro other listed name set told
      obtain rfl := List.mem_singleton.mp listed
      obtain ⟨_, _, clear, _⟩ | ⟨silent, _⟩ := told?_of_prototyped given
      · exact absurd faulty clear
      · rw [silent] at told
        contradiction
  · rw [read]
    refine ⟨idle, fun p inside => inside, ?_⟩
    intro other listed name set told
    obtain rfl := List.mem_singleton.mp listed
    rw [silent] at told
    contradiction

private theorem readInto_registers {functions : List NodeId}
    {all result : OrdMap String ConstraintSet}
    {s t : Reading} (idle : s.following = [])
    (read : m.readInto all functions s = .ok result t) : m.Registers functions s t := by
  induction functions generalizing all s with
  | nil =>
    obtain ⟨_, rfl⟩ := pure_eq_ok read
    exact ⟨idle, fun p inside => inside, fun _ listed => absurd listed List.not_mem_nil⟩
  | cons function rest ih =>
    have first := readFunction_registers (m := m) function idle
    unfold TypeRecovery.Ends at first
    simp only [readInto] at read
    rw [← List.singleton_append]
    split at read
    next u outcome =>
      rw [outcome] at first
      exact first.append (ih first.idle read)
    next name constraints u outcome =>
      rw [outcome] at first
      exact first.append (ih first.idle read)
    next e u outcome =>
      rw [outcome] at first
      split at read
      next =>
        have later := ih (by exact first.idle) read
        exact first.append ⟨later.idle, later.grown, later.told⟩
      next => contradiction

private theorem told?_of_not_listed {function : NodeId} (absent : function ∉ m.prototypes.keys) :
    m.told? function = none := by
  apply told?_of_not_prototyped
  intro name ret params given
  obtain ⟨type, recorded, _⟩ := given.recorded
  exact absent ((OrdMap.mem_keys _ _).mpr ⟨type, recorded⟩)

theorem readPrototypes_registers {all : OrdMap String ConstraintSet} {s : Reading}
    (read : m.readPrototypes {} = .ok all s) {function : NodeId} {name : String}
    {set : ConstraintSet} (told : m.told? function = some (name, set)) (inside : c ∈ set)
    (mentions : c.Mentions (Reading.sealedAtom p)) : p ∈ s.sealedPointers := by
  by_cases listed : function ∈ m.prototypes.keys
  · exact (readInto_registers rfl read).told function listed name set told c inside p mentions
  · rw [told?_of_not_listed listed] at told
    contradiction

/-- The prototypes of a module can be read, and a pointer is found to be sealed. -/
def Uncovers (m : CodeModule) (p : NodeId) : Prop :=
  ∃ all s, m.readPrototypes {} = .ok all s ∧ p ∈ s.sealedPointers

end CodeModule

theorem SealedTypes.Keyed.get?_insertAll {found : SealedTypes} (keyed : found.Keyed) (s : Reading)
    (v : TypeVar) (p : NodeId) : (found.insertAll s.sealedTypes.entries).get? v = some p ↔
      found.get? v = some p ∨ p ∈ s.sealedPointers ∧ v = Reading.sealedAtom p := by
  rw [OrdMap.get?_insertAll _ _ (OrdMap.nodup_keys _), ← OrdMap.get?_eq_some_iff,
    Reading.sealedTypes_get?]
  constructor
  · intro known
    rcases known with new | ⟨_, old⟩
    · exact .inr new
    · exact .inl old
  · intro known
    rcases known with old | new
    · -- A type that is found again is found under the same atom.
      by_cases again : v ∈ s.sealedTypes.keys
      · obtain ⟨q, sealing⟩ := (OrdMap.mem_keys _ _).mp again
        obtain ⟨inside, same⟩ := Reading.sealedTypes_get?.mp sealing
        obtain rfl : q = p := Reading.sealedAtom_injective (same.symm.trans (keyed v p old))
        exact .inl ⟨inside, same⟩
      · exact .inr ⟨again, old⟩
    · exact .inl new

namespace Recovery
variable {settings : Settings} {r t : Recovery}

/-- Merging modules reads each of them, and registers just what they uncover. -/
theorem mergeModules_sealedTypes {modules : List CodeModule}
    {all merged : OrdMap String ConstraintSet} {found sealedTypes : SealedTypes}
    (keyed : found.Keyed)
    (done : mergeModules settings all found modules r = .ok (merged, sealedTypes) t) :
    (∀ m ∈ modules, ∃ all s, m.readPrototypes {} = .ok all s) ∧
    ∀ v p, sealedTypes.get? v = some p ↔
      found.get? v = some p ∨ (∃ m ∈ modules, m.Uncovers p) ∧ v = Reading.sealedAtom p := by
  induction modules generalizing all found r with
  | nil =>
    obtain ⟨same, _⟩ := pure_eq_ok done
    obtain ⟨_, rfl⟩ := Prod.mk.inj same
    simp
  | cons m rest ih =>
    obtain ⟨⟨annotations, own⟩, u, first, done⟩ := bind_eq_ok done
    obtain ⟨_, _, _, later⟩ := bind_eq_ok done
    obtain ⟨s, read, rfl⟩ := readModule_ok first
    have uncovers (p : NodeId) : m.Uncovers p ↔ p ∈ s.sealedPointers := by
      simp [CodeModule.Uncovers, read]
    have grown : SealedTypes.Keyed (found.insertAll s.sealedTypes.entries) := by
      intro v p known
      rcases (keyed.get?_insertAll s v p).mp known with old | new
      · exact keyed v p old
      · exact new.2
    obtain ⟨reads, members⟩ := ih grown later
    refine ⟨?_, fun v p => ?_⟩
    · intro other listed
      rcases List.mem_cons.mp listed with rfl | late
      · exact ⟨annotations, s, read⟩
      · exact reads other late
    · rw [members, keyed.get?_insertAll, List.exists_mem_cons_iff, uncovers, or_and_right, or_assoc]

/-- The sealed types that the constraints of modules name are known: each atom to the lattice, and
the type that it stands for under it. Nothing else is known, and no atom is taken for another. -/
structure Unseals (t : Recovery) (modules : List CodeModule) : Prop where
  complete : ∀ m ∈ modules, ∀ function name set, m.told? function = some (name, set) →
    ∀ c ∈ set, ∀ p, c.Mentions (Reading.sealedAtom p) →
      Reading.sealedAtom p ∈ t.lattice.sealedAtoms ∧
      t.sealedTypes.get? (Reading.sealedAtom p) = some p ∧
      ∃ target, m.types.get? p = some (.pointer target) ∧
        ∀ id, target = some id → ∃ node, m.types.get? id = some node ∧ node.Hollow
  known : ∀ v, v ∈ t.lattice.sealedAtoms ↔ t.sealedTypes.contains v
  injective : ∀ p q, Reading.sealedAtom p = Reading.sealedAtom q → p = q
  foreign : ∀ p, ({} : AtomLattice).contains (Reading.sealedAtom p) = false

theorem readAnnotations_unseals {generated merged : OrdMap String ConstraintSet}
    (enabled : settings.readAnnotations = true)
    (done : readAnnotations settings generated r = .ok merged t) : t.Unseals r.binary.modules := by
  obtain ⟨_, _, worked, rfl, -, -, lattice⟩ := readAnnotations_ok enabled done
  have keyed : SealedTypes.Keyed ∅ := by
    intro v p known
    rw [OrdMap.get?_empty] at known
    contradiction
  obtain ⟨reads, members⟩ := mergeModules_sealedTypes keyed worked
  have atoms (v : TypeVar) : v ∈ t.lattice.sealedAtoms ↔ t.sealedTypes.contains v := by
    rw [lattice, AtomLattice.mem_sealedAtoms_extend, OrdMap.mem_keys, OrdMap.contains_iff]
    constructor
    · intro known
      exact (known.resolve_left OrdSet.not_mem_empty).1
    · intro known
      obtain ⟨p, found⟩ := known
      have same : v = Reading.sealedAtom p := by
        rcases (members v p).mp found with old | new
        · exact keyed v p old
        · exact new.2
      exact .inr ⟨⟨p, found⟩, same ▸ Reading.sealedAtom_ground? p⟩
  refine ⟨?_, atoms, fun p q => Reading.sealedAtom_injective, ?_⟩
  · intro m listed function name set told c inside p mentions
    obtain ⟨all, s, read⟩ := reads m listed
    have sealing := CodeModule.readPrototypes_registers read told inside mentions
    have found : t.sealedTypes.get? (Reading.sealedAtom p) = some p :=
      (members _ p).mpr (.inr ⟨⟨m, listed, all, s, read, sealing⟩, rfl⟩)
    refine ⟨?_, found, (CodeModule.whole_of_told? told inside mentions).exists_pointer⟩
    exact (atoms _).mpr ((OrdMap.contains_iff _ _).mpr ⟨p, found⟩)
  · intro p
    have absent : Reading.sealedAtom p ∉ (∅ : OrdSet TypeVar) := OrdSet.not_mem_empty
    rw [AtomLattice.contains, Reading.sealedAtom_ground?]
    exact decide_eq_false absent

/-- Two modules in which memory is freed and allocated again, by a pointer to nothing in particular.
The second module also has a function with an argument that cannot be read. -/
def allocation : Recovery :=
  let one : CodeModule := {
    name := "one"
    isa := .x64
    functions := [⟨⟨1⟩, ["free"], ∅, ∅⟩]
    types := OrdMap.ofList [(⟨2⟩, .void), (⟨3⟩, .pointer (some ⟨2⟩)),
      (⟨4⟩, .function none [some ⟨3⟩])]
    prototypes := OrdMap.ofList [(⟨1⟩, ⟨4⟩)] }
  let other : CodeModule := {
    name := "other"
    isa := .x64
    functions := [⟨⟨5⟩, ["realloc"], ∅, ∅⟩, ⟨⟨6⟩, ["lost"], ∅, ∅⟩]
    types := OrdMap.ofList [(⟨7⟩, .pointer none), (⟨8⟩, .function (some ⟨7⟩) [some ⟨7⟩]),
      (⟨9⟩, .function none [some ⟨7⟩, some ⟨10⟩])]
    prototypes := OrdMap.ofList [(⟨5⟩, ⟨8⟩), (⟨6⟩, ⟨9⟩)] }
  start ⟨[one, other], []⟩ ⟨11⟩ false

theorem readAnnotations_unseals_allocation : ∃ merged t,
    readAnnotations {} ∅ allocation = .ok merged t ∧
    Reading.sealedAtom ⟨3⟩ ∈ t.lattice.sealedAtoms ∧
    t.sealedTypes.get? (Reading.sealedAtom ⟨3⟩) = some ⟨3⟩ ∧
    t.sealedTypes.get? (Reading.sealedAtom ⟨7⟩) = some ⟨7⟩ := by
  obtain ⟨merged, t, done⟩ := exists_eq_ok
    (show succeeds (readAnnotations {} ∅ allocation) by decide +kernel)
  obtain ⟨complete, -⟩ := readAnnotations_unseals rfl done
  have first : ∃ m ∈ allocation.binary.modules, m.told? ⟨1⟩ =
      some ("free", OrdSet.ofList [⟨⟨"free", [.input 0]⟩, Reading.sealedAtom ⟨3⟩⟩]) := by
    decide +kernel
  have second : ∃ m ∈ allocation.binary.modules, m.told? ⟨5⟩ =
      some ("realloc", OrdSet.ofList [⟨⟨"realloc", [.input 0]⟩, Reading.sealedAtom ⟨7⟩⟩,
        ⟨Reading.sealedAtom ⟨7⟩, ⟨"realloc", [.output]⟩⟩]) := by
    decide +kernel
  obtain ⟨m, listed, told⟩ := first
  obtain ⟨registered, found, -⟩ := complete m listed _ _ _ told _
    (OrdSet.mem_ofList.mpr List.mem_cons_self) ⟨3⟩ (.inr rfl)
  obtain ⟨m, listed, told⟩ := second
  obtain ⟨-, found', -⟩ := complete m listed _ _ _ told _
    (OrdSet.mem_ofList.mpr List.mem_cons_self) ⟨7⟩ (.inr rfl)
  exact ⟨merged, t, done, registered, found, found'⟩

end Recovery
end TypeRecovery
