import TypeRecovery.Proofs.Constraint
import TypeRecovery.Proofs.Prototype.Functions

/-! The constraints of prototypes as texts. Labels and atoms are in the grammar whatever the types
are, so that a constraint can be read back from its text just if the name of its function is a word
of the grammar. A name never holds a full stop, but may hold a blank or be empty. -/
namespace TypeRecovery
open Relation

namespace Text

theorem mem_toDigits {b n : Nat} {c : Char} (base : 1 < b) (inside : c ∈ Nat.toDigits b n) :
    ∃ d < b, c = d.digitChar := by
  induction n using Nat.strongRecOn with
  | ind n ih =>
    by_cases small : n < b
    · rw [Nat.toDigits_of_lt_base small, List.mem_singleton] at inside
      exact ⟨n, small, inside⟩
    · have large := Nat.le_of_not_lt small
      rw [Nat.toDigits_of_base_le base large, List.mem_append, List.mem_singleton] at inside
      rcases inside with early | last
      · exact ih (n / b) (Nat.div_lt_self (by omega) base) early
      · exact ⟨n % b, Nat.mod_lt n (by omega), last⟩

private theorem isSolid_hex8 {n : Nat} {c : Char} (inside : c ∈ (hex8 n).toList) : isSolid c := by
  have digits : ∀ d < 16, isSolid (Nat.digitChar d) := by decide
  rw [hex8, String.toList_ofList, List.mem_append] at inside
  rcases inside with zero | digit
  · rw [List.eq_of_mem_replicate zero]
    decide
  · obtain ⟨d, small, rfl⟩ := mem_toDigits (by decide) digit
    exact digits d small

end Text

namespace TypeVar
open Text

private theorem plain_append {start rest : String} (path : List Label) (full : start ≠ "")
    (solid : start.toList.all isSolid) (tail : ∀ c ∈ rest.toList, isSolid c) :
    Plain ⟨start ++ rest, path⟩ := by
  refine ⟨?_, ?_⟩
  · intro empty
    apply full
    have nil := congrArg String.toList empty
    rw [String.toList_append] at nil
    exact String.toList_inj.mp (List.append_eq_nil_iff.mp nil).1
  · intro c inside
    rw [String.toList_append, List.mem_append] at inside
    rcases inside with early | late
    · exact List.all_eq_true.mp solid c early
    · exact tail c late

private theorem plain_numbered (start : String) (n : Nat) (full : start ≠ "")
    (solid : start.toList.all isSolid) : Plain ⟨start ++ Nat.repr n, []⟩ :=
  plain_append [] full solid fun _ inside => isSolid_repr inside

private theorem plain_sealedAtom (pointer : NodeId) : (Reading.sealedAtom pointer).Plain :=
  plain_append [] (by decide) (by decide) fun _ inside => isSolid_hex8 inside

private theorem plain_of_isNamed {node : TypeNode} {name : String} (named : node.IsNamed name) :
    Plain ⟨name, []⟩ := by
  cases named with
  | void | bool | char => decide
  | signed size => exact plain_numbered "int" _ (by decide) (by decide)
  | unsigned size => exact plain_numbered "uint" _ (by decide) (by decide)
  | float size => exact plain_numbered "float" _ (by decide) (by decide)
  | @wide size _ => exact plain_numbered "char" _ (by decide) (by decide)

end TypeVar

private theorem Side.order_plain (side : Side) (v w : TypeVar) :
    (side.order v w).Plain ↔ v.Plain ∧ w.Plain := by
  cases side with
  | left => exact Iff.rfl
  | right => exact and_comm

namespace CodeModule
open Text
variable {m : CodeModule}

private theorem Step.base_eq {side : Side} {place next : Waypoint} (step : m.Step side place next) :
    next.about.base = place.about.base := by
  cases step
  rfl

private theorem base_eq_of_walk {side : Side} {start place : Waypoint}
    (walk : ReflTransGen (m.Step side) start place) : place.about.base = start.about.base := by
  induction walk with
  | refl => rfl
  | tail _ step ih => exact step.base_eq.trans ih

private theorem Start.base_eq {name : String} {ret : Option NodeId} {params : List (Option NodeId)}
    {side : Side} {start : Waypoint} (starts : Start name ret params side start) :
    start.about.base = name := by
  cases starts <;> rfl

private theorem Yields.exists_atom {side : Side} {place : Waypoint} {c : Constraint}
    (yields : m.Yields side place c) : ∃ atom : TypeVar, atom.Plain ∧
      c = side.order place.about atom := by
  cases yields with
  | scalar found named => exact ⟨_, TypeVar.plain_of_isNamed named, rfl⟩
  | pointer whole => exact ⟨_, TypeVar.plain_sealedAtom _, rfl⟩

private theorem prototypeReport_finds {name : String} {ret : Option NodeId}
    {params : List (Option NodeId)}
    {c : Constraint} (found : (m.prototypeReport name ret params).finds c) :
    ∃ (side : Side) (v atom : TypeVar), v.base = name ∧ atom.Plain ∧ c = side.order v atom := by
  obtain ⟨side, start, starts, place, walk, yields⟩ := found
  obtain ⟨atom, plain, rfl⟩ := yields.exists_atom
  exact ⟨side, place.about, atom, (base_eq_of_walk walk).trans starts.base_eq, plain, rfl⟩

theorem functionName_undotted (m : CodeModule) (f : Routine) :
    '.' ∉ (m.functionName f).toList := by
  intro dot
  rw [functionName] at dot
  split at dot
  next =>
    have plain := TypeVar.plain_numbered "FUN_" ((m.entryAddress? f).getD 0) (by decide) (by decide)
    exact absurd (plain.2 '.' dot) (by decide)
  next kept => exact kept (.inr dot)

private theorem told?_sound {function : NodeId} {name : String} {set : ConstraintSet}
    (told : m.told? function = some (name, set)) : '.' ∉ name.toList ∧ ∀ c ∈ set,
      ∃ (side : Side) (v atom : TypeVar), v.base = name ∧ atom.Plain ∧ c = side.order v atom := by
  obtain ⟨ret, params, given, _, members⟩ := told?_eq_some_iff.mp told
  obtain ⟨f, _, rfl⟩ := given.known
  refine ⟨functionName_undotted m f, ?_⟩
  intro c inside
  exact prototypeReport_finds ((members c).mp inside)

/-- A constraint that the prototypes of a module give is read back from its text just if its
function has a name that is not empty and holds neither the subtype sign nor white space. -/
theorem readPrototypes_ofText_iff {all : OrdMap String ConstraintSet} {s : Reading} {name : String}
    {set : ConstraintSet} {c : Constraint} (read : m.readPrototypes {} = .ok all s)
    (given : all.get? name = some set) (inside : c ∈ set) :
    Constraint.ofText c.text = .ok c ↔
      name ≠ "" ∧ '⊑' ∉ name.toList ∧ ∀ x ∈ name.toList, isSpace x = false := by
  obtain ⟨function, told⟩ := exists_told? read given
  obtain ⟨undotted, sound⟩ := told?_sound told
  obtain ⟨side, v, atom, rfl, plain, rfl⟩ := sound c inside
  have back : Constraint.ofText (side.order v atom).text = .ok (side.order v atom) ↔ v.Plain := by
    rw [← and_iff_left plain (a := v.Plain), ← side.order_plain]
    exact ⟨Constraint.plain_of_ofText, Constraint.ofText_text⟩
  rw [back, TypeVar.Plain]
  apply and_congr_right
  intro _
  constructor
  · intro solid
    refine ⟨fun symbol => absurd (solid _ symbol) (by decide), fun x member => ?_⟩
    exact (isSolid_iff.mp (solid x member)).2.2
  · intro clear x member
    refine isSolid_iff.mpr ⟨?_, ?_, clear.2 x member⟩
    · rintro rfl
      exact undotted member
    · rintro rfl
      exact clear.1 member

/-- Functions that allocate memory and take a size; the name of one of them is of two words. -/
def allocators : CodeModule where
  name := "allocators"
  isa := .x64
  functions := [⟨⟨3⟩, ["operator new"], ∅, ∅⟩, ⟨⟨4⟩, ["malloc@2.2.5"], ∅, ∅⟩]
  types := OrdMap.ofList [(⟨1⟩, .int 8 false), (⟨2⟩, .function none [some ⟨1⟩])]
  prototypes := OrdMap.ofList [(⟨3⟩, ⟨2⟩), (⟨4⟩, ⟨2⟩)]

def sizeOfArgument (name : String) : Constraint := ⟨⟨name, [.input 0]⟩, ⟨"uint64", []⟩⟩

private theorem allocators_read : ∃ all s, allocators.readPrototypes {} = .ok all s ∧
    all.get? "operator new" = some (OrdSet.ofList [sizeOfArgument "operator new"]) ∧
    all.get? "FUN_0" = some (OrdSet.ofList [sizeOfArgument "FUN_0"]) := by
  have outcome : (match allocators.readPrototypes {} with
      | .ok all _ => decide (
        all.get? "operator new" = some (OrdSet.ofList [sizeOfArgument "operator new"]) ∧
        all.get? "FUN_0" = some (OrdSet.ofList [sizeOfArgument "FUN_0"]))
      | .error _ _ => false) = true := by decide +kernel
  cases read : allocators.readPrototypes {} with
  | ok all s => exact ⟨all, s, rfl, by simpa only [read, decide_eq_true_eq] using outcome⟩
  | error e s => simp only [read, Bool.false_eq_true] at outcome

theorem readPrototypes_ofText_iff_word :
    Constraint.ofText (sizeOfArgument "FUN_0").text = .ok (sizeOfArgument "FUN_0") := by
  obtain ⟨all, s, read, _, given⟩ := allocators_read
  have solid : "FUN_0".toList.all fun x => !Text.isSpace x := by decide
  refine (readPrototypes_ofText_iff read given (by decide)).mpr ⟨by decide, by decide, ?_⟩
  intro x member
  simpa using List.all_eq_true.mp solid x member

/-- The text of a constraint on a function whose name holds a blank is no constraint. -/
theorem ofText_two_words : ∃ all s set c, allocators.readPrototypes {} = .ok all s ∧
    all.get? "operator new" = some set ∧ c ∈ set ∧ Constraint.ofText c.text ≠ .ok c := by
  obtain ⟨all, s, read, given, _⟩ := allocators_read
  exact ⟨all, s, _, _, read, given, (by decide : sizeOfArgument "operator new" ∈ _), by decide +kernel⟩

end CodeModule
end TypeRecovery
