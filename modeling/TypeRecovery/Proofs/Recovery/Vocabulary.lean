import TypeRecovery.Proofs.Recovery.Sealing
import TypeRecovery.Proofs.Text

/-! The vocabulary of prototypes. Whatever a prototype says about a variable of its function, it says
by the atom of a type. Atoms of pointers are registered with the lattice as they come up. Those of
scalars are composed from their widths, and the lattice has them for some widths only. -/
namespace TypeRecovery
open Relation

namespace Ground

/-- The numbers that the names of the fixed atoms give after a word. -/
def widthsAfter (word : String) : List UInt64 :=
  all.filterMap fun g => (Text.afterStart? word.toList g.name.toList).bind Text.word?

theorem isSome_ground?_iff {word : String} {widths : List UInt64} (all : widthsAfter word = widths)
    (named : widths.all fun w => (⟨word ++ Text.wordText w, []⟩ : TypeVar).ground?.isSome)
    (w : UInt64) : (⟨word ++ Text.wordText w, []⟩ : TypeVar).ground?.isSome ↔ w ∈ widths := by
  refine ⟨fun known => ?_, List.all_eq_true.mp named w⟩
  obtain ⟨g, found⟩ := Option.isSome_iff_exists.mp known
  have same := congrArg TypeVar.base (TypeVar.eq_toVar_of_ground? found)
  rw [← all]
  apply List.mem_filterMap.mpr
  refine ⟨g, mem_all g, ?_⟩
  rw [show g.name = word ++ Text.wordText w from same.symm, String.toList_append,
    Text.afterStart?_append, Option.bind_some, Text.word?_wordText]

end Ground

namespace TypeNode
variable {node : TypeNode} {name : String}

/-- The types whose atoms the lattice has once they have come up: pointers, and scalars with so many
bits. Bits are counted in 64 bits, and a char of one byte is named without them. -/
inductive Spoken : TypeNode → Prop where
  | void : Spoken .void
  | bool : Spoken .bool
  | byte : Spoken (.char 1)
  | char {size : Nat} (width : UInt64.ofNat (size * 8) ∈ [16, 32]) : Spoken (.char size)
  | int {size : Nat} (signed : Bool) (width : UInt64.ofNat (size * 8) ∈ [8, 16, 32, 64, 128]) :
    Spoken (.int size signed)
  | float {size : Nat} (width : UInt64.ofNat (size * 8) ∈ [32, 64, 80, 128]) : Spoken (.float size)
  | pointer (target : Option NodeId) : Spoken (.pointer target)

theorem IsNamed.isSome_ground?_iff (named : node.IsNamed name) :
    (⟨name, []⟩ : TypeVar).ground?.isSome ↔ node.Spoken := by
  cases named with
  | void => exact iff_of_true (by decide) .void
  | bool => exact iff_of_true (by decide) .bool
  | char => exact iff_of_true (by decide) .byte
  | signed size =>
    have all : Ground.widthsAfter "int" = [8, 16, 32, 64, 128] := by decide +kernel
    refine (Ground.isSome_ground?_iff all (by decide +kernel) _).trans ⟨.int true, fun spoken => ?_⟩
    cases spoken with
    | int _ width => exact width
  | unsigned size =>
    have all : Ground.widthsAfter "uint" = [8, 16, 32, 64, 128] := by decide +kernel
    refine (Ground.isSome_ground?_iff all (by decide +kernel) _).trans ⟨.int false, fun spoken => ?_⟩
    cases spoken with
    | int _ width => exact width
  | float size =>
    have all : Ground.widthsAfter "float" = [32, 64, 80, 128] := by decide +kernel
    refine (Ground.isSome_ground?_iff all (by decide +kernel) _).trans ⟨.float, fun spoken => ?_⟩
    cases spoken with
    | float width => exact width
  | @wide size other =>
    have all : Ground.widthsAfter "char" = [16, 32] := by decide +kernel
    refine (Ground.isSome_ground?_iff all (by decide +kernel) _).trans ⟨.char, fun spoken => ?_⟩
    cases spoken with
    | byte => contradiction
    | char width => exact width

end TypeNode

namespace TypeTable
variable {types : TypeTable} {id : NodeId} {atom : TypeVar}

theorem Tip.present (tip : types.Tip id atom) : ∃ node, types.get? id = some node := by
  cases tip with
  | scalar found named => exact ⟨_, found⟩
  | whole whole => exact whole.present

theorem Tip.spoken_iff {node : TypeNode} (tip : types.Tip id atom)
    (found : types.get? id = some node) :
    node.Spoken ↔ atom.ground?.isSome ∨ ∃ p, atom = Reading.sealedAtom p := by
  cases tip with
  | @scalar other name found' named =>
    obtain rfl := Option.some.inj (found.symm.trans found')
    -- No size makes the name of a scalar that of a pointer.
    have unsealed : ¬ ∃ p, (⟨name, []⟩ : TypeVar) = Reading.sealedAtom p := by
      intro taken
      obtain ⟨p, same⟩ := taken
      exact named.ne_sealedAtom p same
    rw [or_iff_left unsealed, named.isSome_ground?_iff]
  | whole whole =>
    obtain ⟨target, found', _⟩ := whole.exists_pointer
    obtain rfl := Option.some.inj (found.symm.trans found')
    exact iff_of_true (.pointer target) (.inr ⟨id, rfl⟩)

end TypeTable

/-- The variables below an argument of a function, and those below its result. -/
inductive TypeVar.Rooted (name : String) : Side → TypeVar → Prop where
  | argument (index : UInt64) (rest : List Label) : Rooted name .left ⟨name, .input index :: rest⟩
  | result (rest : List Label) : Rooted name .right ⟨name, .output :: rest⟩

theorem TypeVar.Rooted.extend {name : String} {side : Side} {v : TypeVar}
    (rooted : Rooted name side v) (label : Label) : Rooted name side (v.extend label) := by
  cases rooted with
  | argument index rest => exact .argument index (rest ++ [label])
  | result rest => exact .result (rest ++ [label])

namespace CodeModule
variable {m : CodeModule} {side : Side} {name : String} {c : Constraint}

theorem Start.rooted {ret : Option NodeId} {params : List (Option NodeId)} {start : Waypoint}
    (starts : Start name ret params side start) : TypeVar.Rooted name side start.about := by
  cases starts with
  | argument => exact .argument _ []
  | result => exact .result []

theorem Step.rooted {place next : Waypoint} (step : m.Step side place next)
    (rooted : TypeVar.Rooted name side place.about) : TypeVar.Rooted name side next.about := by
  cases step
  exact (rooted.extend side.access).extend _

private theorem rooted_of_walk {start place : Waypoint}
    (walk : ReflTransGen (m.Step side) start place)
    (rooted : TypeVar.Rooted name side start.about) : TypeVar.Rooted name side place.about := by
  induction walk with
  | refl => exact rooted
  | tail _ step ih => exact step.rooted ih

private theorem Yields.exists_tip {place : Waypoint} (yields : m.Yields side place c) :
    ∃ atom, m.types.Tip place.type atom ∧ c = side.order place.about atom := by
  cases yields with
  | scalar found named => exact ⟨_, .scalar found named, rfl⟩
  | pointer sealing => exact ⟨_, .whole sealing.whole, rfl⟩

/-- All that a function tells is about variables of its own and atoms of types. -/
theorem exists_tip_of_told? {function : NodeId} {set : ConstraintSet}
    (told : m.told? function = some (name, set)) (inside : c ∈ set) :
    ∃ side about last atom, c = side.order about atom ∧ TypeVar.Rooted name side about ∧
      m.types.Tip last atom := by
  obtain ⟨ret, params, _, _, members⟩ := told?_eq_some_iff.mp told
  obtain ⟨side, start, starts, place, walk, yields⟩ := (members c).mp inside
  obtain ⟨atom, tip, same⟩ := yields.exists_tip
  exact ⟨side, place.about, place.type, atom, same, rooted_of_walk walk starts.rooted, tip⟩

end CodeModule

private theorem SealedTypes.keyed_empty : Keyed ∅ := by
  intro v p known
  rw [OrdMap.get?_empty] at known
  contradiction

namespace Recovery
variable {settings : Settings} {r t : Recovery} {generated merged : OrdMap String ConstraintSet}

theorem mem_of_combine {start : Option ConstraintSet} {told : ConstraintSet} {c : Constraint}
    (inside : c ∈ settings.combine start told) :
    (∃ found, start = some found ∧ c ∈ found) ∨ c ∈ told := by
  unfold Settings.combine at inside
  split at inside
  next => exact .inr inside
  next found =>
    split at inside
    next => exact .inr inside
    next =>
      rcases OrdSet.mem_union.mp inside with early | late
      · exact .inl ⟨found, rfl, early⟩
      · exact .inr late

theorem mem_of_combined {start : Option ConstraintSet} {told : List ConstraintSet}
    {set : ConstraintSet} {c : Constraint}
    (combined : told.foldl (fun before part => some (settings.combine before part)) start = some set)
    (inside : c ∈ set) : (∃ found, start = some found ∧ c ∈ found) ∨ ∃ part ∈ told, c ∈ part := by
  induction told generalizing start with
  | nil => exact .inl ⟨set, combined, inside⟩
  | cons part rest ih =>
    rcases ih combined with ⟨found, same, inside⟩ | ⟨later, listed, inside⟩
    · obtain rfl := Option.some.inj same
      rcases mem_of_combine inside with old | new
      · exact .inl old
      · exact .inr ⟨part, List.mem_cons_self, new⟩
    · exact .inr ⟨later, List.mem_cons_of_mem part listed, inside⟩

section
variable (enabled : settings.readAnnotations = true)
  (done : readAnnotations settings generated r = .ok merged t)
include enabled done

private theorem readAnnotations_source {name : String} {set : ConstraintSet} {c : Constraint}
    (given : merged.get? name = some set) (inside : c ∈ set) :
    (∃ found, generated.get? name = some found ∧ c ∈ found) ∨
    ∃ m ∈ r.binary.modules, ∃ function own, m.told? function = some (name, own) ∧ c ∈ own := by
  rw [readAnnotations_get? enabled done] at given
  refine (mem_of_combined given inside).imp_right ?_
  intro told
  obtain ⟨own, listed, inside⟩ := told
  obtain ⟨m, listed, last⟩ := List.mem_filterMap.mp listed
  have entered := OrdMap.mem_valuesAt.mp (List.mem_of_getLast? last)
  obtain ⟨function, _, told⟩ := List.mem_filterMap.mp entered
  exact ⟨m, listed, function, own, told, inside⟩

/-- Besides the fixed atoms, the lattice has those of the pointers that were found to be sealed. -/
theorem readAnnotations_contains_iff (v : TypeVar) : t.lattice.contains v ↔
    v.ground?.isSome ∨ ∃ p, (∃ m ∈ r.binary.modules, m.Uncovers p) ∧ v = Reading.sealedAtom p := by
  obtain ⟨found, _, worked, -, -, -, lattice⟩ := readAnnotations_ok enabled done
  obtain ⟨-, members⟩ := mergeModules_sealedTypes SealedTypes.keyed_empty worked
  rw [lattice, AtomLattice.contains_extend, OrdMap.mem_keys]
  apply or_congr_right
  apply exists_congr
  intro p
  rw [members, OrdMap.get?_empty, or_iff_right (by simp)]

private theorem readAnnotations_uncovers {m : CodeModule} (listed : m ∈ r.binary.modules)
    {function : NodeId} {name : String} {set : ConstraintSet}
    (told : m.told? function = some (name, set)) {c : Constraint} (inside : c ∈ set) {p : NodeId}
    (mentions : c.Mentions (Reading.sealedAtom p)) : m.Uncovers p := by
  obtain ⟨_, _, worked, -⟩ := readAnnotations_ok enabled done
  obtain ⟨reads, -⟩ := mergeModules_sealedTypes SealedTypes.keyed_empty worked
  obtain ⟨all, s, read⟩ := reads m listed
  exact ⟨all, s, read, CodeModule.readPrototypes_registers read told inside mentions⟩

end

/-- The constraints of a program are what was generated and what functions tell. A function tells of
a variable of its own and the atom of a type, and the atom is in the lattice just if the type is a
pointer or a scalar of a width that the lattice knows. -/
structure Speaks (t : Recovery) (modules : List CodeModule)
    (generated merged : OrdMap String ConstraintSet) : Prop where
  source : ∀ name set, merged.get? name = some set → ∀ c ∈ set,
    (∃ found, generated.get? name = some found ∧ c ∈ found) ∨
    ∃ m ∈ modules, ∃ function own, m.told? function = some (name, own) ∧ c ∈ own
  wording : ∀ m ∈ modules, ∀ function name set, m.told? function = some (name, set) → ∀ c ∈ set,
    ∃ side about last node atom, c = side.order about atom ∧ TypeVar.Rooted name side about ∧
      m.types.get? last = some node ∧ m.types.Tip last atom ∧
      (t.lattice.contains atom ↔ node.Spoken)

theorem readAnnotations_speaks (enabled : settings.readAnnotations = true)
    (done : readAnnotations settings generated r = .ok merged t) :
    t.Speaks r.binary.modules generated merged := by
  refine ⟨fun name set given c inside => readAnnotations_source enabled done given inside, ?_⟩
  intro m listed function name set told c inside
  obtain ⟨side, about, last, atom, rfl, rooted, tip⟩ := CodeModule.exists_tip_of_told? told inside
  obtain ⟨node, found⟩ := tip.present
  refine ⟨side, about, last, node, atom, rfl, rooted, found, tip, ?_⟩
  rw [readAnnotations_contains_iff enabled done, tip.spoken_iff found]
  apply or_congr_right
  constructor
  · intro registered
    obtain ⟨p, _, same⟩ := registered
    exact ⟨p, same⟩
  · intro sealing
    obtain ⟨p, rfl⟩ := sealing
    -- The pointer was registered when this very constraint was read.
    have mentions := (side.order_mentions about (Reading.sealedAtom p) _).mpr (.inr rfl)
    exact ⟨p, ⟨m, listed, readAnnotations_uncovers enabled done listed told inside mentions⟩, rfl⟩

/-- A function with an argument of each kind: a number, a pointer to nothing in particular, and a
number of half the usual precision. -/
def halfPrecision : Recovery :=
  let only : CodeModule := {
    name := "half"
    isa := .x64
    functions := [⟨⟨1⟩, ["scale"], ∅, ∅⟩]
    types := OrdMap.ofList [(⟨2⟩, .int 4 true), (⟨3⟩, .pointer none), (⟨4⟩, .float 2),
      (⟨5⟩, .function none [some ⟨2⟩, some ⟨3⟩, some ⟨4⟩])]
    prototypes := OrdMap.ofList [(⟨1⟩, ⟨5⟩)] }
  start ⟨[only], []⟩ ⟨6⟩ false

def halfPrecisionTold : ConstraintSet :=
  OrdSet.ofList [⟨⟨"scale", [.input 0]⟩, ⟨"int32", []⟩⟩,
    ⟨⟨"scale", [.input 1]⟩, Reading.sealedAtom ⟨3⟩⟩, ⟨⟨"scale", [.input 2]⟩, ⟨"float16", []⟩⟩]

private theorem halfPrecision_told : ∃ m ∈ halfPrecision.binary.modules,
    m.told? ⟨1⟩ = some ("scale", halfPrecisionTold) := by
  decide +kernel

theorem readAnnotations_speaks_halfPrecision : ∃ merged t,
    readAnnotations {} ∅ halfPrecision = .ok merged t ∧ t.lattice.contains ⟨"int32", []⟩ ∧
    t.lattice.contains (Reading.sealedAtom ⟨3⟩) := by
  obtain ⟨merged, t, done⟩ := exists_eq_ok
    (show succeeds (readAnnotations {} ∅ halfPrecision) by decide +kernel)
  obtain ⟨-, wording⟩ := readAnnotations_speaks rfl done
  obtain ⟨m, listed, told⟩ := halfPrecision_told
  have argument (index : UInt64) (base : String)
      (inside : ⟨⟨"scale", [.input index]⟩, ⟨base, []⟩⟩ ∈ halfPrecisionTold) :
      ∃ last node, m.types.get? last = some node ∧ m.types.Tip last ⟨base, []⟩ ∧
        (t.lattice.contains ⟨base, []⟩ ↔ node.Spoken) := by
    obtain ⟨side, about, last, node, atom, same, rooted, rest⟩ :=
      wording m listed _ _ _ told _ inside
    cases rooted with
    | argument =>
      obtain ⟨_, rfl⟩ := Constraint.mk.inj same
      exact ⟨last, node, rest⟩
    | result => exact absurd (Constraint.mk.inj same).2 (by simp)
  obtain ⟨_, _, found, number, understood⟩ := argument 0 "int32" (by decide +kernel)
  obtain ⟨_, _, found', pointer, understood'⟩ :=
    argument 1 (Concrete.sealedName ⟨3⟩) (by decide +kernel)
  refine ⟨merged, t, done, understood.mpr ?_, understood'.mpr ?_⟩
  · exact (number.spoken_iff found).mpr (.inl (by decide +kernel))
  · exact (pointer.spoken_iff found').mpr (.inr ⟨⟨3⟩, rfl⟩)

/-- A float of two bytes is told of by an atom that the lattice does not have. -/
theorem readAnnotations_speaks_beyond : ∃ merged t,
    readAnnotations {} ∅ halfPrecision = .ok merged t ∧
    merged.get? "scale" = some halfPrecisionTold ∧
    ⟨⟨"scale", [.input 2]⟩, ⟨"float16", []⟩⟩ ∈ halfPrecisionTold ∧
    t.lattice.contains ⟨"float16", []⟩ = false := by
  have outcome : (match readAnnotations {} ∅ halfPrecision with
      | .ok merged t => decide (merged.get? "scale" = some halfPrecisionTold ∧
        t.lattice.contains ⟨"float16", []⟩ = false)
      | .error _ _ => false) = true := by decide +kernel
  cases done : readAnnotations {} ∅ halfPrecision with
  | ok merged t =>
    simp only [done, decide_eq_true_eq] at outcome
    exact ⟨merged, t, rfl, outcome.1, by decide +kernel, outcome.2⟩
  | error e t => simp only [done, Bool.false_eq_true] at outcome

end Recovery
end TypeRecovery
