import TypeRecovery.Proofs.Prototype.Representable

/-! Modules whose prototypes are described in full by their constraints. Reading one succeeds and
gives, for each function with a prototype, what the leaves of its arguments and its result say. -/
namespace TypeRecovery
open Relation

namespace CodeModule
open TypeTable Reader
variable (m : CodeModule) (words : WordSizes)

/-- A function type whose result and arguments are all known and representable. -/
structure Annotates (type ret : NodeId) (params : List NodeId) : Prop where
  declared : m.types.get? type = some (.function (some ret) (params.map some))
  result : m.types.Representable words.pointer ret
  arguments : ∀ id ∈ params, m.types.Representable words.pointer id
  /-- Arguments are counted in 64 bits. -/
  few : params.length < 2 ^ 64

/-- The functions of the module have identifiers and names of their own, and every prototype is
that of a function and representable. -/
structure Annotated : Prop where
  supported : m.isa.sizes? = some words
  ids : (m.functions.map Routine.id).Nodup
  names : (m.functions.map m.functionName).Nodup
  known : ∀ id type, m.prototypes.get? id = some type → ∃ f ∈ m.functions, f.id = id
  described : ∀ id type, m.prototypes.get? id = some type →
    ∃ ret params, m.Annotates words type ret params

/-- A function of the module, by identifier and name, has a prototype that is described. -/
structure Declares (id type : NodeId) (name : String) (ret : NodeId) (params : List NodeId) :
    Prop where
  named : ∃ f ∈ m.functions, f.id = id ∧ m.functionName f = name
  recorded : m.prototypes.get? id = some type
  annotates : m.Annotates words type ret params

/-- The variables of a prototype, with their sides and types. -/
inductive Slot (name : String) (ret : NodeId) (params : List NodeId) :
    Side → TypeVar → NodeId → Prop where
  | argument {i : Nat} {id : NodeId} (declared : params[i]? = some id) :
    Slot name ret params .left ⟨name, [.input (UInt64.ofNat i)]⟩ id
  | result : Slot name ret params .right ⟨name, [.output]⟩ ret

/-- Some walk of a prototype ends at a variable of a type. -/
def Ends (name : String) (ret : NodeId) (params : List NodeId) (side : Side) (w : TypeVar)
    (last : NodeId) : Prop :=
  ∃ v id, Slot name ret params side v id ∧ m.types.Leaf words.pointer side v id w last

def Finds (name : String) (ret : NodeId) (params : List NodeId) (c : Constraint) : Prop :=
  ∃ side w last atom, m.Ends words name ret params side w last ∧ m.types.Tip last atom ∧
    c = side.order w atom

def Encloses (name : String) (ret : NodeId) (params : List NodeId) (pointer : NodeId) : Prop :=
  ∃ side w, m.Ends words name ret params side w pointer ∧ m.types.Whole pointer

variable {m words}

theorem start_iff_slot {name : String} {ret : NodeId} {params : List NodeId} {side : Side}
    {start : Waypoint} : Start name (some ret) (params.map some) side start ↔
      start.trail = [] ∧ Slot name ret params side start.about start.type := by
  constructor
  · intro given
    rcases given with ⟨declared⟩ | ⟨declared⟩
    · refine ⟨rfl, .argument ?_⟩
      simpa using declared
    · obtain rfl := Option.some.inj declared
      exact ⟨rfl, .result⟩
  · obtain ⟨trail, about, type⟩ := start
    intro given
    rcases given with ⟨rfl, ⟨declared⟩ | _⟩
    · refine .argument ?_
      simpa using declared
    · exact .result rfl

theorem Annotates.representable {type ret id : NodeId} {params : List NodeId} {name : String}
    {side : Side} {v : TypeVar} (annotates : m.Annotates words type ret params)
    (slot : Slot name ret params side v id) : m.types.Representable words.pointer id := by
  cases slot with
  | argument declared => exact annotates.arguments id (List.mem_of_getElem? declared)
  | result => exact annotates.result

theorem yields_iff_tip {side : Side} {place : Waypoint} {c : Constraint}
    (fresh : place.type ∉ place.trail) : m.Yields side place c ↔
      ∃ atom, m.types.Tip place.type atom ∧ c = side.order place.about atom := by
  constructor
  · intro given
    rcases given with ⟨found, named⟩ | ⟨bare | ⟨opened, found, hollow⟩⟩
    · exact ⟨_, .scalar found named, rfl⟩
    · exact ⟨_, .whole (.bare bare), rfl⟩
    · exact ⟨_, .whole (.hollow opened.1 found hollow), rfl⟩
  · intro given
    rcases given with ⟨atom, ⟨found, named⟩ | ⟨bare | ⟨found, present, hollow⟩⟩, rfl⟩
    · exact .scalar found named
    · exact .pointer (.bare bare)
    · exact .pointer (.hollow ⟨found, fresh⟩ present hollow)

private theorem not_fault_of_tip {place : Waypoint} {atom : TypeVar}
    (tip : m.types.Tip place.type atom)
    (fresh : place.type ∉ place.trail) : ¬ m.Fault place := by
  obtain ⟨found, named⟩ | ⟨bare | ⟨found, present, hollow⟩⟩ := tip
  · refine not_fault_of_closed m found (by cases named <;> simp [TypeNode.kind]) ?_
    intro target given
    obtain ⟨pointer, _⟩ := given
    obtain rfl := Option.some.inj (found.symm.trans pointer)
    cases named
  · refine not_fault_of_closed m bare (by simp [TypeNode.kind]) ?_
    intro target given
    obtain ⟨pointer, _⟩ := given
    simp [bare] at pointer
  · rw [fault_of_opens m ⟨found, fresh⟩ present, hollow]
    simp

theorem seals_iff_whole {place : Waypoint} (fresh : place.type ∉ place.trail) :
    m.Seals place ↔ m.types.Whole place.type := by
  constructor
  · intro given
    rcases given with bare | ⟨opened, found, hollow⟩
    · exact .bare bare
    · exact .hollow opened.1 found hollow
  · intro given
    rcases given with bare | ⟨found, present, hollow⟩
    · exact .bare bare
    · exact .hollow ⟨found, fresh⟩ present hollow

theorem pointer_le (supported : m.isa.sizes? = some words) : words.pointer ≤ 16 := by
  revert supported
  cases m.isa <;> simp only [Isa.sizes?, reduceCtorEq, Option.some.injEq, false_implies] <;>
    rintro rfl <;> decide

section
variable {side : Side} {start : Waypoint}

theorem report_finds_iff {c : Constraint} (supported : m.isa.sizes? = some words)
    (representable : m.types.Representable words.pointer start.type) (first : start.trail = []) :
    (m.report side start).finds c ↔ ∃ w last, m.types.Leaf words.pointer side start.about start.type
      w last ∧ ∃ atom, m.types.Tip last atom ∧ c = side.order w atom := by
  refine leads_iff_leaf supported ?_ (fun _ => yields_iff_tip) (pointer_le supported)
    representable (by simp [first])
  intro place target node opened opens _ yields
  obtain ⟨atom, tip, _⟩ := (yields_iff_tip opens.2).mp yields
  exact Tip.of_opened opened tip

private theorem report_not_faulty (supported : m.isa.sizes? = some words)
    (representable : m.types.Representable words.pointer start.type) (first : start.trail = []) :
    ¬ (m.report side start).faulty := by
  have none : (m.report side start).faulty ↔ ∃ w last, m.types.Leaf words.pointer side start.about
      start.type w last ∧ False := by
    refine leads_iff_leaf supported ?_ ?_ (pointer_le supported) representable (by simp [first])
    · intro place target node opened opens sized
      rw [fault_of_opens m opens opened.present]
      intro given
      obtain ⟨part, inside, unsized⟩ := given
      obtain ⟨n, sized⟩ := sized part inside
      exact unsized n sized
    · intro place atom tip fresh
      exact iff_of_false (not_fault_of_tip tip fresh) id
  simp [none]

theorem report_seals_iff {pointer : NodeId} (supported : m.isa.sizes? = some words)
    (representable : m.types.Representable words.pointer start.type) (first : start.trail = []) :
    (m.report side start).seals pointer ↔ ∃ w last, m.types.Leaf words.pointer side start.about
      start.type w last ∧ last = pointer ∧ m.types.Whole last := by
  refine leads_iff_leaf supported ?_ ?_ (pointer_le supported) representable (by simp [first])
  · intro place target node opened opens _ given
    obtain ⟨_, seals⟩ := given
    exact Tip.of_opened opened (.whole ((seals_iff_whole opens.2).mp seals))
  · intro place atom _ fresh
    exact and_congr_right fun _ => seals_iff_whole fresh

end

theorem Annotates.readPrototype {type ret : NodeId} {params : List NodeId} {s : Reading}
    (annotates : m.Annotates words type ret params) (supported : m.isa.sizes? = some words)
    (name : String) (idle : s.following = []) :
    ∃ found t, m.readPrototype name (some ret) (params.map some) s = .ok found t ∧
      t.following = [] ∧ (∀ c, c ∈ found ↔ m.Finds words name ret params c) ∧
      ∀ p, p ∈ t.sealedPointers ↔
        p ∈ s.sealedPointers ∨ m.Encloses words name ret params p := by
  have slots (holds : Report → Prop) (tells : Side → TypeVar → NodeId → Prop)
      (same : ∀ side start, m.types.Representable words.pointer start.type → start.trail = [] →
        (holds (m.report side start) ↔ tells side start.about start.type)) :
      (∃ side start, Start name (some ret) (params.map some) side start ∧
        holds (m.report side start)) ↔
      ∃ side v id, Slot name ret params side v id ∧ tells side v id := by
    constructor
    · intro given
      obtain ⟨side, start, starts, here⟩ := given
      obtain ⟨first, slot⟩ := start_iff_slot.mp starts
      exact ⟨side, _, _, slot, (same side start (annotates.representable slot) first).mp here⟩
    · intro given
      obtain ⟨side, v, id, slot, told⟩ := given
      refine ⟨side, ⟨[], v, id⟩, start_iff_slot.mpr ⟨rfl, slot⟩, ?_⟩
      exact (same side ⟨[], v, id⟩ (annotates.representable slot) rfl).mpr told
  obtain ⟨outcome, covered, read⟩ :=
    readPrototype_covers m name (some ret) (params.map some) s idle
  rw [read]
  cases covered with
  | error kept faulty =>
    obtain ⟨side, start, starts, faulty⟩ := faulty
    obtain ⟨first, slot⟩ := start_iff_slot.mp starts
    exact absurd faulty (report_not_faulty supported (annotates.representable slot) first)
  | ok kept sound exact sealing =>
    refine ⟨_, _, rfl, kept.trans idle, fun c => ?_, fun p => ?_⟩
    · rw [OrdSet.mem_ofList, exact]
      refine (slots (·.finds c) (fun side v id => ∃ w last,
        m.types.Leaf words.pointer side v id w last ∧
          ∃ atom, m.types.Tip last atom ∧ c = side.order w atom)
        fun _ _ => report_finds_iff supported).trans ?_
      simp only [Finds, Ends]
      grind
    · rw [sealing]
      refine or_congr_right ((slots (·.seals p) (fun side v id => ∃ w last,
        m.types.Leaf words.pointer side v id w last ∧ last = p ∧ m.types.Whole last)
        fun _ _ => report_seals_iff supported).trans ?_)
      simp only [Encloses, Ends]
      grind

private theorem Annotated.function?_eq {f : Routine} (annotated : m.Annotated words)
    (listed : f ∈ m.functions) : m.function? f.id = some f := by
  cases found : m.function? f.id with
  | none => simpa using List.find?_eq_none.mp found f listed
  | some g =>
    have same : g.id = f.id := by simpa using List.find?_some found
    have inside : g ∈ m.functions := List.mem_of_find?_eq_some found
    rw [List.inj_on_of_nodup_map annotated.ids inside listed same]

theorem Annotated.exists_declares {id : NodeId} (annotated : m.Annotated words)
    (listed : id ∈ m.prototypes.keys) :
    ∃ type name ret params, m.Declares words id type name ret params := by
  obtain ⟨type, recorded⟩ := (OrdMap.mem_keys _ _).mp listed
  obtain ⟨f, inside, same⟩ := annotated.known id type recorded
  obtain ⟨ret, params, annotates⟩ := annotated.described id type recorded
  exact ⟨type, m.functionName f, ret, params, ⟨f, inside, same, rfl⟩, recorded, annotates⟩

section
variable {id id' type type' ret ret' : NodeId} {name name' : String} {params params' : List NodeId}

theorem Annotated.declares_unique (annotated : m.Annotated words)
    (first : m.Declares words id type name ret params)
    (second : m.Declares words id type' name' ret' params') :
    type = type' ∧ name = name' ∧ ret = ret' ∧ params = params' := by
  obtain ⟨⟨f, inside, same, rfl⟩, recorded, annotates⟩ := first
  obtain ⟨⟨g, inside', same', rfl⟩, recorded', annotates'⟩ := second
  obtain rfl := List.inj_on_of_nodup_map annotated.ids inside inside' (same.trans same'.symm)
  obtain rfl := Option.some.inj (recorded.symm.trans recorded')
  have equal := Option.some.inj (annotates.declared.symm.trans annotates'.declared)
  simp only [TypeNode.function.injEq, Option.some.injEq] at equal
  exact ⟨rfl, rfl, equal.1, List.map_injective_iff.mpr (fun _ _ => Option.some.inj) equal.2⟩

theorem Annotated.declares_id_unique (annotated : m.Annotated words)
    (first : m.Declares words id type name ret params)
    (second : m.Declares words id' type' name ret' params') : id = id' := by
  obtain ⟨⟨f, inside, rfl, named⟩, _⟩ := first
  obtain ⟨⟨g, inside', rfl, named'⟩, _⟩ := second
  rw [List.inj_on_of_nodup_map annotated.names inside inside' (named.trans named'.symm)]

end

theorem Declares.readFunction {id type ret : NodeId} {name : String} {params : List NodeId}
    {s : Reading} (annotated : m.Annotated words)
    (declares : m.Declares words id type name ret params) (idle : s.following = []) :
    ∃ found t, m.readFunction id s = .ok (some (name, found)) t ∧
      t.following = [] ∧ (∀ c, c ∈ found ↔ m.Finds words name ret params c) ∧
      ∀ p, p ∈ t.sealedPointers ↔
        p ∈ s.sealedPointers ∨ m.Encloses words name ret params p := by
  obtain ⟨⟨f, inside, rfl, rfl⟩, recorded, annotates⟩ := declares
  obtain ⟨found, t, read, described⟩ :=
    annotates.readPrototype annotated.supported (m.functionName f) idle
  refine ⟨found, t, ?_, described⟩
  rw [readFunction_eq_readPrototype m recorded (annotated.function?_eq inside) annotates.declared,
    read]

theorem Annotated.readInto (annotated : m.Annotated words) (ids : List NodeId)
    (listed : ∀ id ∈ ids, id ∈ m.prototypes.keys) (all : OrdMap String ConstraintSet) (s : Reading)
    (idle : s.following = []) :
    ∃ merged t, m.readInto all ids s = .ok merged t ∧
      (∀ name set, merged.get? name = some set → all.get? name = some set ∨
        ∃ id ∈ ids, ∃ type ret params, m.Declares words id type name ret params ∧
          ∀ c, c ∈ set ↔ m.Finds words name ret params c) ∧
      (∀ name, all.contains name → merged.contains name) ∧
      (∀ id ∈ ids, ∀ type name ret params, m.Declares words id type name ret params →
        merged.contains name) ∧
      ∀ p, p ∈ t.sealedPointers ↔ p ∈ s.sealedPointers ∨
        ∃ id ∈ ids, ∃ type name ret params, m.Declares words id type name ret params ∧
          m.Encloses words name ret params p := by
  induction ids generalizing all s with
  | nil => exact ⟨all, s, rfl, by simp⟩
  | cons id rest ih =>
    obtain ⟨type, name, ret, params, declares⟩ :=
      annotated.exists_declares (listed id List.mem_cons_self)
    obtain ⟨found, t, read, idle', exact, sealing⟩ := declares.readFunction annotated idle
    obtain ⟨merged, u, later, sound, kept, complete, sealing'⟩ :=
      ih (fun id inside => listed id (List.mem_cons_of_mem _ inside)) (all.insert name found) t idle'
    have stays : merged.contains name := by
      apply kept
      rw [OrdMap.contains, OrdMap.get?_insert_self]
      rfl
    refine ⟨merged, u, ?_, ?_, ?_, ?_, ?_⟩
    · simp only [CodeModule.readInto, read]
      exact later
    · intro name' set there
      rcases sound name' set there with before | ⟨id', inside, described⟩
      · rw [OrdMap.get?_insert] at before
        split at before
        next same =>
          subst same
          obtain rfl := Option.some.inj before
          exact .inr ⟨id, List.mem_cons_self, type, ret, params, declares, exact⟩
        next => exact .inl before
      · exact .inr ⟨id', List.mem_cons_of_mem _ inside, described⟩
    · intro name' before
      apply kept
      rw [OrdMap.contains, OrdMap.get?_insert]
      split
      · rfl
      · exact before
    · intro id' inside type' name' ret' params' declares'
      rcases List.mem_cons.mp inside with rfl | inside
      · obtain ⟨-, rfl, -⟩ := annotated.declares_unique declares declares'
        exact stays
      · exact complete id' inside type' name' ret' params' declares'
    · intro p
      rw [sealing', sealing, or_assoc]
      refine or_congr_right ?_
      constructor
      · intro given
        rcases given with here | ⟨id', inside, described⟩
        · exact ⟨id, List.mem_cons_self, type, name, ret, params, declares, here⟩
        · exact ⟨id', List.mem_cons_of_mem _ inside, described⟩
      · intro given
        obtain ⟨id', inside, type', name', ret', params', declares', here⟩ := given
        rcases List.mem_cons.mp inside with rfl | inside
        · obtain ⟨-, rfl, rfl, rfl⟩ := annotated.declares_unique declares declares'
          exact .inl here
        · exact .inr ⟨id', inside, type', name', ret', params', declares', here⟩

/-- What reading the prototypes of a module comes to: for every function with a prototype, by its
name, just the constraints of its leaves, and the pointers that are sealed. -/
theorem Annotated.readPrototypes (annotated : m.Annotated words) :
    ∃ all s, m.readPrototypes {} = .ok all s ∧
      (∀ name set, all.get? name = some set → ∃ id type ret params,
        m.Declares words id type name ret params ∧
          ∀ c, c ∈ set ↔ m.Finds words name ret params c) ∧
      (∀ id type name ret params, m.Declares words id type name ret params →
        all.contains name) ∧
      ∀ p, p ∈ s.sealedPointers ↔ ∃ id type name ret params,
        m.Declares words id type name ret params ∧ m.Encloses words name ret params p := by
  obtain ⟨all, s, read, sound, _, complete, sealing⟩ :=
    annotated.readInto m.prototypes.keys (fun _ inside => inside) ∅ {} rfl
  have listed {id type ret : NodeId} {name : String} {params : List NodeId}
      (declares : m.Declares words id type name ret params) : id ∈ m.prototypes.keys :=
    (OrdMap.mem_keys _ _).mpr ⟨type, declares.recorded⟩
  refine ⟨all, s, read, ?_, ?_, ?_⟩
  · intro name set found
    rcases sound name set found with before | ⟨id, _, described⟩
    · simp at before
    · exact ⟨id, described⟩
  · intro id type name ret params declares
    exact complete id (listed declares) type name ret params declares
  · intro p
    rw [sealing]
    constructor
    · intro given
      rcases given with before | ⟨id, _, described⟩
      · exact absurd before OrdSet.not_mem_empty
      · exact ⟨id, described⟩
    · intro given
      obtain ⟨id, type, name, ret, params, declares, here⟩ := given
      exact .inr ⟨id, listed declares, type, name, ret, params, declares, here⟩

end CodeModule
end TypeRecovery
