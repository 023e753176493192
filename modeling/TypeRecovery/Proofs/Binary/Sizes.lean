import Mathlib.Logic.Relation
import TypeRecovery.Binary.TypeTable
import TypeRecovery.Proofs.Ordered

/-! Sizes of types as a relation. The size of an array is the size of its element, counted; an
array that contains itself has no size, because no derivation comes to an end. -/
namespace TypeRecovery
namespace TypeTable
open Relation

inductive SizeIs (table : TypeTable) (pointerSize : Nat) : NodeId → Nat → Prop where
  | bool {id} (found : table.get? id = some .bool) : SizeIs table pointerSize id 1
  | char {id n} (found : table.get? id = some (.char n)) : SizeIs table pointerSize id n
  | int {id n signed} (found : table.get? id = some (.int n signed)) :
    SizeIs table pointerSize id n
  | float {id n} (found : table.get? id = some (.float n)) : SizeIs table pointerSize id n
  | unknown {id n} (found : table.get? id = some (.unknown n)) : SizeIs table pointerSize id n
  | struct {id n fields} (found : table.get? id = some (.struct n fields)) :
    SizeIs table pointerSize id n
  | pointer {id pointee} (found : table.get? id = some (.pointer pointee)) :
    SizeIs table pointerSize id pointerSize
  | array {id element n count} (found : table.get? id = some (.array element count))
    (sized : SizeIs table pointerSize element n) : SizeIs table pointerSize id (n * count)

def ElementOf (table : TypeTable) (id element : NodeId) : Prop :=
  ∃ count, table.get? id = some (.array element count)

variable {table : TypeTable} {pointerSize n : Nat} {id : NodeId}

theorem SizeIs.acyclic (sized : SizeIs table pointerSize id n) :
    ¬ TransGen table.ElementOf id id := by
  induction sized with
  | @array id element n count found sized ih =>
    -- A cycle through an array is also one through its element, which has a size already.
    intro cycle
    obtain ⟨next, ⟨_, first⟩, rest⟩ := TransGen.head'_iff.mp cycle
    obtain ⟨rfl, rfl⟩ : next = element ∧ _ = count := by simpa using first.symm.trans found
    exact ih (TransGen.tail' rest ⟨_, found⟩)
  | bool found | char found | int found | float found | unknown found | struct found
  | pointer found =>
    intro cycle
    obtain ⟨_, ⟨_, first⟩, _⟩ := TransGen.head'_iff.mp cycle
    simp [found] at first

theorem sizeIs_iff : SizeIs table pointerSize id n ↔
    match table.get? id with
    | none | some .void | some (.function _ _) => False
    | some .bool => n = 1
    | some (.char size) | some (.int size _) | some (.float size) | some (.unknown size)
    | some (.struct size _) => n = size
    | some (.pointer _) => n = pointerSize
    | some (.array element count) => ∃ k, SizeIs table pointerSize element k ∧ n = k * count := by
  constructor
  · intro sized
    cases sized with
    | array found sized => simpa only [found] using ⟨_, sized, rfl⟩
    | bool found | char found | int found | float found | unknown found | struct found
    | pointer found => simp only [found]
  · intro described
    cases found : table.get? id with
    | none => simp only [found] at described
    | some node =>
      simp only [found] at described
      cases node with
      | void | function => contradiction
      | bool => exact described ▸ .bool found
      | char => exact described ▸ .char found
      | int => exact described ▸ .int found
      | float => exact described ▸ .float found
      | unknown => exact described ▸ .unknown found
      | struct => exact described ▸ .struct found
      | pointer => exact described ▸ .pointer found
      | array =>
        obtain ⟨k, sized, rfl⟩ := described
        exact .array found sized

/-- Types that are no longer idle are arrays that are being entered, and so contain this one. -/
theorem sizeWithin_eq_ok_iff (idle : List NodeId)
    (entered : ∀ x ∈ table.keys, x ∉ idle → TransGen table.ElementOf x id) :
    table.sizeWithin pointerSize idle id = .ok n ↔ SizeIs table pointerSize id n := by
  fun_induction sizeWithin table pointerSize idle id generalizing n with
  | case11 idle id element count found inside ih =>
    have contained : ElementOf table id element := ⟨count, found⟩
    have deeper : ∀ x ∈ table.keys, x ∉ idle.erase id → TransGen table.ElementOf x element := by
      intro x listed outside
      by_cases here : x = id
      · exact here ▸ .single contained
      · have before : x ∉ idle := fun still => outside ((List.mem_erase_of_ne here).mpr still)
        exact (entered x listed before).tail contained
    rw [sizeIs_iff, found]
    cases measured : table.sizeWithin pointerSize (idle.erase id) element with
    | ok k =>
      simp only [← ih deeper, measured, Except.map, Except.ok.injEq, exists_eq_left']
      exact eq_comm
    | error e =>
      simp only [← ih deeper, measured, Except.map, reduceCtorEq, false_and, exists_false]
  | case12 idle id element count found outside =>
    have listed : id ∈ table.keys := (OrdMap.mem_keys table id).mpr ⟨_, found⟩
    refine iff_of_false (by simp) fun sized => ?_
    exact sized.acyclic (entered id listed outside)
  | _ => simp [sizeIs_iff, eq_comm, *]

theorem sizeOf_eq_ok_iff :
    table.sizeOf pointerSize id = .ok n ↔ SizeIs table pointerSize id n :=
  sizeWithin_eq_ok_iff table.keys fun _ listed outside => absurd listed outside

theorem SizeIs.unique {k : Nat} (left : SizeIs table pointerSize id n)
    (right : SizeIs table pointerSize id k) : n = k :=
  Except.ok.inj ((sizeOf_eq_ok_iff.mpr left).symm.trans (sizeOf_eq_ok_iff.mpr right))

end TypeTable
end TypeRecovery
