import Mathlib.Data.List.Perm.Subperm
import TypeRecovery.Proofs.Sketch.Shapes

/-! Signatures read off sketches. A sketch that outlines a prototype has an argument for each of
its arguments and a result, each with the shape of its type. -/
namespace TypeRecovery

theorem findSome?_eq_some {α β : Type} {f : α → Option β} {l : List α} {b : β}
    (hit : ∃ a ∈ l, f a = some b) (only : ∀ a ∈ l, ∀ c, f a = some c → c = b) :
    l.findSome? f = some b := by
  obtain ⟨a, inside, found⟩ := hit
  cases search : l.findSome? f with
  | none =>
    rw [List.findSome?_eq_none_iff.mp search a inside] at found
    contradiction
  | some c =>
    obtain ⟨x, listed, same⟩ := List.exists_of_findSome?_eq_some search
    rw [only x listed c same]

namespace Sketch
variable {s : Sketch} {m : CodeModule} {words : WordSizes} {name : String} {ret id : NodeId}
variable {params : List NodeId} {side : Side} {v : TypeVar}

theorem Outlines.covers {type : NodeId} (outlines : s.Outlines m words name ret params)
    (annotates : m.Annotates words type ret params)
    (slot : CodeModule.Slot name ret params side v id) :
    s.Covers m.types words.pointer side v id where
  nodes w base under := by
    have size := slot.length_path.2
    rw [outlines.nodes]
    constructor
    · intro given
      rcases given with rfl | ⟨side', x, last, ⟨v', id', slot', leaf⟩, on⟩
      · have short := under.length_le
        simp only [size, List.length_nil] at short
        omega
      · have way := (TypeVar.mem_ancestry.mp on).2
        obtain rfl := slot.eq_of_extends slot' (under.trans way) leaf.extends.2
        obtain ⟨rfl, rfl⟩ := annotates.slot_unique slot slot'
        exact ⟨x, last, leaf, way⟩
    · intro given
      obtain ⟨x, last, leaf, on⟩ := given
      refine .inr ⟨side, x, last, ⟨v, id, slot, leaf⟩, TypeVar.mem_ancestry.mpr ⟨?_, on⟩⟩
      rw [base, leaf.extends.1]
  bounded leaf tip := outlines.bounded ⟨v, id, slot, leaf⟩ tip

theorem Outlines.length_path_le {w : TypeVar} {last : NodeId}
    (outlines : s.Outlines m words name ret params)
    (ends : m.Ends words name ret params side w last) : w.path.length ≤ s.nodes.size := by
  -- All variables on the way to `w` are nodes of the sketch, and no two of them are the same.
  have distinct : w.ancestry.Nodup := by
    refine List.Nodup.map_on ?_ List.nodup_range
    intro i first j second same
    have lengths := congrArg (fun v => v.path.length) same
    simp only [List.length_take, List.mem_range] at lengths first second
    omega
  have inside : w.ancestry ⊆ s.nodes.keys := fun v under =>
    (outlines.nodes v).mpr (.inr ⟨side, w, last, ends, under⟩)
  have bound := (distinct.subperm inside).length_le
  simp only [TypeVar.ancestry, List.length_map, List.length_range, OrdMap.keys] at bound
  rw [OrdMap.size]
  omega

theorem Outlines.depicts {type : NodeId} {sealedTypes : SealedTypes}
    (outlines : s.Outlines m words name ret params)
    (annotates : m.Annotates words type ret params) (narrow : words.pointer ≤ 16)
    (registered : ∀ p, m.Encloses words name ret params p →
      sealedTypes.get? (Reading.sealedAtom p) = some p)
    (slot : CodeModule.Slot name ret params side v id) :
    Depicts m.types words.pointer sealedTypes (s.shape v) id := by
  refine depicts_shapeTo (annotates.representable slot) narrow
    (outlines.covers annotates slot) ?_ ?_
  · intro w last leaf whole
    exact registered last ⟨side, w, ⟨v, id, slot, leaf⟩, whole⟩
  · intro w last leaf
    have bound := outlines.length_path_le ⟨v, id, slot, leaf⟩
    omega

theorem Outlines.mem_children {type : NodeId} {label : Label} {w : TypeVar}
    (outlines : s.Outlines m words name ret params)
    (annotates : m.Annotates words type ret params) (narrow : words.pointer ≤ 16) :
    (label, w) ∈ s.children ⟨name, []⟩ ↔
      w = ⟨name, [label]⟩ ∧ ∃ side id, CodeModule.Slot name ret params side w id := by
  rw [Sketch.mem_children]
  constructor
  · intro given
    obtain ⟨inside, rfl⟩ := given
    refine ⟨rfl, ?_⟩
    rcases (outlines.nodes _).mp inside with root | ⟨side, x, last, ⟨v, id, slot, leaf⟩, on⟩
    · simp [TypeVar.extend] at root
    · have way := (TypeVar.mem_ancestry.mp on).2
      have size : v.path.length = [label].length := slot.length_path.2
      have paths := (List.prefix_of_prefix_length_le leaf.extends.2 way
        (Nat.le_of_eq size)).eq_of_length size
      obtain ⟨base, path⟩ := v
      obtain rfl : base = name := slot.length_path.1
      obtain rfl : path = [label] := paths
      exact ⟨side, id, slot⟩
  · intro given
    obtain ⟨rfl, side, id, slot⟩ := given
    refine ⟨?_, rfl⟩
    obtain ⟨x, last, leaf⟩ := (annotates.representable slot).exists_leaf narrow side ⟨name, [label]⟩
    refine (outlines.nodes _).mpr (.inr ⟨side, x, last, ⟨_, id, slot, leaf⟩, ?_⟩)
    exact TypeVar.mem_ancestry.mpr ⟨leaf.extends.1.symm, leaf.extends.2⟩

theorem mem_nodes_iff : v ∈ s.nodes.keys ↔ s.nodes.contains v := by
  rw [OrdMap.mem_keys, OrdMap.contains_iff]

/-- The number of parameters that a function gets: one more than the greatest index of an argument,
counted in 64 bits. -/
inductive Counts (s : Sketch) (function : TypeVar) : Nat → Prop where
  | none (absent : ∀ index, ¬ s.nodes.contains (function.extend (.input index))) :
    Counts s function 0
  | last {last : UInt64} (there : s.nodes.contains (function.extend (.input last)))
    (greatest : ∀ index, s.nodes.contains (function.extend (.input index)) → index ≤ last) :
    Counts s function (last + 1).toNat

section
variable {function : TypeVar} {n : Nat}

theorem Counts.unique {k : Nat} (first : s.Counts function n) (second : s.Counts function k) :
    n = k := by
  cases first with
  | none absent =>
    cases second with
    | none => rfl
    | last there => exact absurd there (absent _)
  | last there greatest =>
    cases second with
    | none absent => exact absurd there (absent _)
    | last there' greatest' =>
      rw [UInt64.le_antisymm (greatest' _ there) (greatest _ there')]

theorem Counts.lt_size (counts : s.Counts function n) : n < 2 ^ 64 := by
  cases counts with
  | none => decide
  | last => exact UInt64.toNat_lt _

theorem Counts.lt_iff (counts : s.Counts function n)
    (narrow : ∀ index, s.nodes.contains (function.extend (.input index)) →
      index.toNat + 1 < 2 ^ 64) {k : Nat} :
    k < n ↔ ∃ index : UInt64, k ≤ index.toNat ∧ s.nodes.contains (function.extend (.input index)) := by
  cases counts with
  | none absent =>
    refine iff_of_false (Nat.not_lt_zero k) ?_
    rintro ⟨index, _, there⟩
    exact absent index there
  | @last last there greatest =>
    rw [UInt64.toNat_add, UInt64.toNat_one, Nat.mod_eq_of_lt (narrow last there), Nat.lt_succ_iff]
    refine ⟨fun near => ⟨last, near, there⟩, ?_⟩
    rintro ⟨index, near, there'⟩
    exact Nat.le_trans near (UInt64.le_iff_toNat_le.mp (greatest index there'))

theorem mem_paramIndices {i : Nat} : i ∈ s.paramIndices function ↔
    ∃ index : UInt64, index.toNat = i ∧ s.nodes.contains (function.extend (.input index)) := by
  simp only [paramIndices, List.mem_filterMap, Prod.exists, Sketch.mem_children, mem_nodes_iff]
  constructor
  · rintro ⟨label, _, ⟨there, rfl⟩, listed⟩
    cases label with
    | input index => exact ⟨index, Option.some.inj listed, there⟩
    | _ => simp at listed
  · rintro ⟨index, rfl, there⟩
    exact ⟨.input index, _, ⟨there, rfl⟩, rfl⟩

theorem counts_paramCount (s : Sketch) (function : TypeVar) :
    s.Counts function (s.paramCount function) := by
  unfold paramCount
  split
  next last found =>
    obtain ⟨listed, greatest⟩ := List.max?_eq_some_iff.mp found
    obtain ⟨index, rfl, there⟩ := mem_paramIndices.mp listed
    have next : UInt64.ofNat (index.toNat + 1) = index + 1 := by
      rw [UInt64.ofNat_add, UInt64.ofNat_toNat]
      rfl
    rw [next]
    refine .last there fun other there' => UInt64.le_iff_toNat_le.mpr ?_
    exact greatest _ (mem_paramIndices.mpr ⟨other, rfl, there'⟩)
  next found =>
    refine .none fun index there => ?_
    have listed := mem_paramIndices.mpr ⟨index, rfl, there⟩
    rw [List.max?_eq_none_iff.mp found] at listed
    exact List.not_mem_nil listed

end

section
variable {type : NodeId} (outlines : s.Outlines m words name ret params)
  (annotates : m.Annotates words type ret params) (narrow : words.pointer ≤ 16)
include outlines annotates narrow

theorem Outlines.argument_iff {index : UInt64} :
    s.nodes.contains ((⟨name, []⟩ : TypeVar).extend (.input index)) ↔ index.toNat < params.length := by
  have child : s.nodes.contains ((⟨name, []⟩ : TypeVar).extend (.input index)) ↔
      (.input index, ⟨name, [.input index]⟩) ∈ s.children ⟨name, []⟩ := by
    rw [Sketch.mem_children, mem_nodes_iff]
    exact (and_iff_left rfl).symm
  rw [child, outlines.mem_children annotates narrow, and_iff_right rfl]
  constructor
  · rintro ⟨side, id, slot⟩
    generalize same : TypeVar.mk name [Label.input index] = v at slot
    cases slot with
    | @argument i _ declared =>
      obtain rfl : index = UInt64.ofNat i := by simpa using same
      have bound := (List.getElem?_eq_some_iff.mp declared).1
      rwa [UInt64.toNat_ofNat_of_lt' (Nat.lt_trans bound annotates.few)]
    | result => simp at same
  · intro bound
    have slot : CodeModule.Slot name ret params .left ⟨name, [.input (.ofNat index.toNat)]⟩
        params[index.toNat] := .argument (List.getElem?_eq_getElem bound)
    rw [UInt64.ofNat_toNat] at slot
    exact ⟨.left, _, slot⟩

theorem Outlines.paramCount_eq : s.paramCount ⟨name, []⟩ = params.length := by
  have few := annotates.few
  have near (index : UInt64)
      (there : s.nodes.contains ((⟨name, []⟩ : TypeVar).extend (.input index))) :
      index.toNat + 1 < 2 ^ 64 :=
    Nat.lt_of_le_of_lt ((outlines.argument_iff annotates narrow).mp there) few
  have same (k : Nat) : k < s.paramCount ⟨name, []⟩ ↔ k < params.length := by
    simp only [(s.counts_paramCount ⟨name, []⟩).lt_iff near, outlines.argument_iff annotates narrow]
    constructor
    · rintro ⟨index, below, bound⟩
      exact Nat.lt_of_le_of_lt below bound
    · intro bound
      have word := UInt64.toNat_ofNat_of_lt' (Nat.lt_trans bound few)
      exact ⟨UInt64.ofNat k, Nat.le_of_eq word.symm, word.symm ▸ bound⟩
  apply Nat.le_antisymm
  · exact Nat.le_of_not_lt fun less => Nat.lt_irrefl _ ((same _).mp less)
  · exact Nat.le_of_not_lt fun less => Nat.lt_irrefl _ ((same _).mpr less)

theorem Outlines.param?_eq {i : Nat} (declared : params[i]? = some id) :
    s.param? ⟨name, []⟩ i = some ⟨name, [.input (UInt64.ofNat i)]⟩ := by
  have few := annotates.few
  have bound := (List.getElem?_eq_some_iff.mp declared).1
  have value : (UInt64.ofNat i).toNat = i := by
    rw [UInt64.toNat_ofNat', Nat.mod_eq_of_lt (by omega)]
  apply findSome?_eq_some
  · refine ⟨(.input (UInt64.ofNat i), ⟨name, [.input (UInt64.ofNat i)]⟩), ?_, ?_⟩
    · exact (outlines.mem_children annotates narrow).mpr ⟨rfl, .left, id, .argument declared⟩
    · simp [value]
  · intro entry child c found
    obtain ⟨label, w⟩ := entry
    obtain ⟨rfl, _⟩ := (outlines.mem_children annotates narrow).mp child
    cases label with
    | input index =>
      obtain ⟨same, rfl⟩ : index.toNat = i ∧ _ = c := by simpa using found
      rw [← same, UInt64.ofNat_toNat]
    | _ => simp at found

theorem Outlines.result?_eq : s.result? ⟨name, []⟩ = some ⟨name, [.output]⟩ := by
  apply findSome?_eq_some
  · refine ⟨(.output, ⟨name, [.output]⟩), ?_, rfl⟩
    exact (outlines.mem_children annotates narrow).mpr ⟨rfl, .right, ret, .result⟩
  · intro entry child c found
    obtain ⟨label, w⟩ := entry
    obtain ⟨rfl, _⟩ := (outlines.mem_children annotates narrow).mp child
    cases label with
    | output => exact (Option.some.inj found).symm
    | _ => simp at found

theorem Outlines.signature_eq {sealedTypes : SealedTypes}
    (registered : ∀ p, m.Encloses words name ret params p →
      sealedTypes.get? (Reading.sealedAtom p) = some p) : ∃ shape shapes,
    s.signature ⟨name, []⟩ = ⟨some shape, shapes.map some⟩ ∧
      Depicts m.types words.pointer sealedTypes shape ret ∧
      List.Forall₂ (Depicts m.types words.pointer sealedTypes) shapes params := by
  refine ⟨s.shape ⟨name, [.output]⟩, (List.range params.length).map fun i =>
    s.shape ⟨name, [.input (UInt64.ofNat i)]⟩, ?_,
    outlines.depicts annotates narrow registered .result, ?_⟩
  · rw [signature, outlines.result?_eq annotates narrow, outlines.paramCount_eq annotates narrow,
      List.map_map, Option.map_some]
    congr 1
    apply List.map_congr_left
    intro i inside
    have bound := List.mem_range.mp inside
    rw [outlines.param?_eq annotates narrow (List.getElem?_eq_getElem bound)]
    rfl
  · rw [List.forall₂_iff_get]
    refine ⟨by simp, ?_⟩
    intro i first second
    simp only [List.get_eq_getElem, List.getElem_map, List.getElem_range]
    exact outlines.depicts annotates narrow registered
      (.argument (List.getElem?_eq_getElem second))

end

end Sketch
end TypeRecovery
