import Mathlib.Data.List.Forall2
import TypeRecovery.Concrete.Declarations
import TypeRecovery.Proofs.Concrete.Naming
import TypeRecovery.Proofs.Graph
import TypeRecovery.Proofs.Outcomes

/-! What the text of inferred types declares. Naming walks depth first and the text breadth first, and
both come to the same nodes: those that a variable's type leads to. -/
namespace TypeRecovery
open Relation

def Inferred.Reaches (inferred : Inferred) (h : Handle) : Prop :=
  (∃ node, inferred.arena.get? h = some node) ∧
    ∃ r ∈ inferred.roots.values, ReflTransGen inferred.arena.Refers r h

namespace Arena
variable {arena : Arena} {hs : List Handle} {h r : Handle}

/-- All nodes of a chain of references that ends in the arena are in the arena. -/
theorem enters_iff : (r < arena.size ∧
      ReflTransGen (EntersIn arena.refs (List.range arena.size)) r h) ↔
    h < arena.size ∧ ReflTransGen arena.Refers r h := by
  constructor
  · intro given
    obtain ⟨inside, path⟩ := given
    refine ⟨?_, path.lift id fun _ _ step => step.1⟩
    rcases path.cases_tail with rfl | ⟨_, _, step⟩
    · exact inside
    · exact List.mem_range.mp step.2
  · intro given
    obtain ⟨inside, path⟩ := given
    induction path with
    | refl => exact ⟨inside, .refl⟩
    | tail _ refers ih =>
      obtain ⟨node, found, _⟩ := refers_iff.mp refers
      obtain ⟨start, before⟩ := ih (lt_size_iff.mpr ⟨node, found⟩)
      exact ⟨start, before.tail ⟨refers, List.mem_range.mpr inside⟩⟩

theorem mem_reach_refs : h ∈ reach arena.refs (List.range arena.size) hs ↔
    (∃ node, arena.get? h = some node) ∧ ∃ r ∈ hs, ReflTransGen arena.Refers r h := by
  rw [mem_reach, ← lt_size_iff]
  simp only [List.mem_range, enters_iff]
  exact ⟨fun ⟨r, listed, inside, path⟩ => ⟨inside, r, listed, path⟩,
    fun ⟨inside, r, listed, path⟩ => ⟨r, listed, inside, path⟩⟩

end Arena

namespace Naming

theorem knows_ofInferred_iff {inferred : Inferred} {h : Handle} :
    (ofInferred inferred).Knows h ↔ inferred.Reaches h := by
  rw [(visits_ofInferred inferred).knows_iff, Inferred.Reaches]
  simp only [List.mem_map, Option.some.injEq, exists_eq_right]

/-- The block of a structure or union: its keyword, the name it has, and a part on a line of its own for
each reference, with the name of what that leads to. -/
def Defines (arena : Arena) (s : Naming) (h : Handle) (text : String) : Prop :=
  ∃ node name parts, arena.get? h = some node ∧ s.get? h = some name ∧
    text = block node.kind name parts ∧
    List.Forall₂ (fun ref part => ∃ member, part = "  " ++ s.nameOr "undefined" ref ++ " " ++
      member ++ ";\n") node.refs parts

variable {arena : Arena} {s : Naming} {h : Handle} {node : Concrete} {text : String}

private theorem nameOr_of_named {absent name : String} (named : s.get? h = some name) :
    s.nameOr absent (some h) = name := by
  simp [nameOr, named]

theorem exists_definition?_iff :
    (∃ text, s.definition? h node = some text) ↔ node.title? ≠ none := by
  cases node <;> simp [definition?, Concrete.title?]

private theorem defines_of_definition? (found : arena.get? h = some node) (named : s.Knows h)
    (written : s.definition? h node = some text) : Defines arena s h text := by
  obtain ⟨name, given⟩ := named
  cases node with
  | struct own size fields =>
    rw [definition?, nameOr_of_named given] at written
    refine ⟨_, name, _, found, given, (Option.some.inj written).symm, ?_⟩
    refine List.forall₂_map_left_iff.mpr (List.forall₂_map_right_iff.mpr ?_)
    refine List.forall₂_same.mpr fun field _ => ⟨"field_" ++ Nat.repr field.offset, ?_⟩
    simp only [String.append_assoc]
    rfl
  | union own members =>
    rw [definition?, nameOr_of_named given] at written
    refine ⟨_, name, _, found, given, (Option.some.inj written).symm, ?_⟩
    refine List.forall₂_iff_get.mpr ⟨by simp [Concrete.refs], fun i _ _ => ?_⟩
    refine ⟨"alt_" ++ Nat.repr i, ?_⟩
    simp only [List.get_eq_getElem, List.getElem_mapIdx, String.append_assoc]
    rfl
  | _ => simp [definition?] at written

end Naming

namespace Inferred
variable {inferred : Inferred} {s : Naming} {h : Handle}

def definitionAt? (inferred : Inferred) (s : Naming) (h : Handle) : Option String :=
  (inferred.arena.get? h).bind (s.definition? h)

private theorem definitions_eq : inferred.definitions s =
    (reach inferred.arena.refs (List.range inferred.arena.size) inferred.roots.values).filterMap
      (inferred.definitionAt? s) := by
  rw [definitions, reached, List.filterMap_filterMap]
  congr 1
  funext h
  rw [definitionAt?]
  cases inferred.arena.get? h <;> rfl

theorem mem_reach_iff : h ∈ reach inferred.arena.refs (List.range inferred.arena.size)
    inferred.roots.values ↔ inferred.Reaches h :=
  Arena.mem_reach_refs

theorem isSome_definitionAt?_iff : (inferred.definitionAt? s h).isSome ↔
    inferred.arena.Aggregate h := by
  rw [definitionAt?, Arena.Aggregate]
  cases inferred.arena.get? h with
  | none => simp
  | some node => simp [Option.isSome_iff_exists, Naming.exists_definition?_iff]

/-- The definitions are those of the reached structures and unions, in some order, each once. -/
theorem definitions_defines (inferred : Inferred) : ∃ order : List Handle, order.Nodup ∧
    (∀ h, h ∈ order ↔ inferred.Reaches h ∧ inferred.arena.Aggregate h) ∧
    List.Forall₂ (Naming.Defines inferred.arena (.ofInferred inferred)) order
      (inferred.definitions (.ofInferred inferred)) := by
  let found := reach inferred.arena.refs (List.range inferred.arena.size) inferred.roots.values
  let written := inferred.definitionAt? (.ofInferred inferred)
  let order := found.filter fun h => (written h).isSome
  have reached (h : Handle) (listed : h ∈ order) : inferred.Reaches h :=
    mem_reach_iff.mp (List.mem_of_mem_filter listed)
  have blocks : List.Forall₂ (fun h block => inferred.Reaches h ∧ written h = some block) order
      (found.filterMap written) :=
    (List.forall₂_and_left ..).mpr ⟨reached, forall₂_filterMap written found⟩
  refine ⟨order, (nodup_reach List.nodup_range).filter _, fun h => ?_, ?_⟩
  · rw [List.mem_filter, isSome_definitionAt?_iff, mem_reach_iff]
  · rw [definitions_eq]
    refine blocks.imp fun h block given => ?_
    obtain ⟨node, present, text⟩ := Option.bind_eq_some_iff.mp given.2
    exact Naming.defines_of_definition? present (Naming.knows_ofInferred_iff.mpr given.1) text

/-- Naming comes to an end. It names what the variables' types lead to and nothing else, and gives
structures and unions without names of their own different ones. The text has a line for each variable,
and a definition for each structure and union among them. -/
theorem text_declares (inferred : Inferred) :
    Naming.Visits inferred.arena [] {} (inferred.roots.values.map some) (.ofInferred inferred) ∧
    (∀ h, (Naming.ofInferred inferred).Knows h ↔ inferred.Reaches h) ∧
    (∀ h h', inferred.Reaches h → Naming.Untitled inferred.arena h →
      Naming.Untitled inferred.arena h' →
      (Naming.ofInferred inferred).get? h = (Naming.ofInferred inferred).get? h' → h = h') ∧
    ∃ lines blocks order, inferred.text = String.join lines ++ String.join blocks ∧
      lines = inferred.roots.entries.map (fun entry =>
        (Naming.ofInferred inferred).rootLine inferred.arena entry.1 entry.2) ∧
      order.Nodup ∧
      (∀ h, h ∈ order ↔ inferred.Reaches h ∧ inferred.arena.Aggregate h) ∧
      List.Forall₂ (Naming.Defines inferred.arena (.ofInferred inferred)) order blocks := by
  have visits := Naming.visits_ofInferred inferred
  have numbered := visits.numbered Naming.numbered_empty
  refine ⟨visits, fun h => Naming.knows_ofInferred_iff, ?_, ?_⟩
  · intro h h' reached own own' same
    obtain ⟨name, named⟩ := Naming.knows_ofInferred_iff.mpr reached
    exact numbered.distinct h h' name own own' named (same ▸ named)
  · obtain ⟨order, distinct, listed, defined⟩ := definitions_defines inferred
    exact ⟨_, _, order, rfl, rfl, distinct, listed, defined⟩

/-- A pointer to a structure that has the pointer and a union as fields; the union has a member that is
not there. -/
def looped : Inferred where
  arena := ⟨#[.pointer (some 1) 8, .struct none 16 [⟨0, some 0⟩, ⟨8, some 2⟩],
    .union none [some 9, some 0]]⟩
  roots := .ofList [(⟨"f", []⟩, 0)]

theorem text_declares_looped : (∀ h, looped.Reaches h ↔ h < 3) ∧
    (Naming.ofInferred looped).get? 1 ≠ (Naming.ofInferred looped).get? 2 ∧
    ¬ (Naming.ofInferred looped).Knows 9 := by
  obtain ⟨_, named, different, _⟩ := text_declares looped
  have step (h r : Handle) (listed : r ∈ looped.arena.refs h) : looped.arena.Refers h r := listed
  have reached (h : Handle) : looped.Reaches h ↔ h < 3 := by
    constructor
    · exact fun given => Arena.lt_size_iff.mpr given.1
    · intro bound
      refine ⟨Arena.lt_size_iff.mp bound, 0, by decide, ?_⟩
      have first : ReflTransGen looped.arena.Refers 0 1 := .single (step 0 1 (by decide))
      match h, bound with
      | 0, _ => exact .refl
      | 1, _ => exact first
      | 2, _ => exact first.tail (step 1 2 (by decide))
  refine ⟨reached, fun same => ?_, fun given => ?_⟩
  · have equal := different 1 2 ((reached 1).mpr (by decide)) ⟨_, rfl, rfl⟩ ⟨_, rfl, rfl⟩ same
    contradiction
  · exact absurd ((reached 9).mp ((named 9).mp given)) (by decide)

end Inferred
end TypeRecovery
