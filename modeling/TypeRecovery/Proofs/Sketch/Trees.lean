import TypeRecovery.Proofs.Concrete.Unfolding
import TypeRecovery.Proofs.Sketch.Dereferences

/-! Types read off one sketch. All sketches are read into one arena, but the tree below the root of
a function is that of its own sketch: the sketch alone says which tree it is, and none of the others
changes it. -/
namespace TypeRecovery

namespace Shape
variable {target : Target} {tree : TypeTree} {shape : Shape} {size width : Nat}

/-- The shape of a value of the given size unfolds to the tree in every arena it is put into. -/
def Becomes (target : Target) (size : Nat) (shape : Shape) (tree : TypeTree) : Prop :=
  ∀ arena, (shape.push target arena size).1.Unfolds (shape.push target arena size).2 tree

theorem Becomes.pointer (becomes : shape.Becomes target width tree) :
    (Shape.pointer width shape).Becomes target size (.pointer tree target.pointerSize) :=
  fun arena => (becomes arena).push_pointer target.pointerSize

section
variable {α : Type} {field : α → Nat × Nat × Shape} {treeOf : α → TypeTree} {items : List α}
variable (each : ∀ item ∈ items, (field item).2.2.Becomes target (field item).2.1 (treeOf item))
include each

private theorem pushFields_parts (arena : Arena) :
    (pushFields target arena (items.map field)).1.Parts
    ((pushFields target arena (items.map field)).2.map Field.type)
    (items.map fun item => some (treeOf item)) := by
  induction items generalizing arena with
  | nil => exact Arena.parts_nil
  | cons item rest ih =>
    have first := each item List.mem_cons_self arena
    have grown := (pushFields_builds target
      ((field item).2.2.push target arena (field item).2.1).1 (rest.map field)).1.extended
    exact (first.mono grown).single.append
      (ih (fun other inside => each other (List.mem_cons_of_mem item inside)) _)

private theorem becomes_record (skipped : List TypeVar) :
    (Shape.record skipped (items.map field)).Becomes target size
      (.pointer (.struct (extent (items.map field))
        (items.map fun item => ((field item).1, treeOf item))) target.pointerSize) := by
  intro arena
  -- The handles of the fields depend on the arena, but the bare structure has only their offsets.
  have offsets : (pushFields target arena (items.map field)).2.map Field.offset =
      (items.map field).map Prod.fst := pushFields_offsets target arena
  have bare := congrArg (List.map fun offset => (⟨offset, none⟩ : Field)) offsets
  rw [List.map_map, List.map_map, List.map_map] at bare
  refine Arena.Unfolds.push_pointer ?_ target.pointerSize
  rw [TypeTree.struct, List.map_map, List.map_map]
  exact bare ▸ Arena.Parts.push (.struct none _ _) (pushFields_parts each arena)

end
end Shape

namespace Signature
variable {target : Target} {shape : Option Shape} {part : Option TypeTree}

def Becomes (target : Target) (shape : Option Shape) (part : Option TypeTree) : Prop :=
  Option.Rel (Shape.Becomes target target.registerSize) shape part

private theorem pushOption_parts (becomes : Becomes target shape part) (arena : Arena) :
    (pushOption target arena shape).1.Parts [(pushOption target arena shape).2] [part] := by
  cases becomes with
  | none => exact Arena.parts_absent
  | some becomes => exact (becomes arena).single

private theorem pushParams_parts {α : Type} {items : List α} {shapeOf : α → Option Shape}
    {partOf : α → Option TypeTree}
    (each : ∀ item ∈ items, Becomes target (shapeOf item) (partOf item)) (arena : Arena) :
    (pushParams target arena (items.map shapeOf)).1.Parts
      (pushParams target arena (items.map shapeOf)).2 (items.map partOf) := by
  induction items generalizing arena with
  | nil => exact Arena.parts_nil
  | cons item rest ih =>
    have first := pushOption_parts (each item List.mem_cons_self) arena
    have grown := (pushParams_builds target (pushOption target arena (shapeOf item)).1
      (rest.map shapeOf)).1.extended
    exact (first.mono grown).append
      (ih (fun other inside => each other (List.mem_cons_of_mem item inside)) _)

private theorem push_unfolds {α : Type} {items : List α} {shapeOf : α → Option Shape}
    {partOf : α → Option TypeTree} (result : Becomes target shape part)
    (each : ∀ item ∈ items, Becomes target (shapeOf item) (partOf item)) (arena : Arena) :
    (push target arena ⟨shape, items.map shapeOf⟩).1.Unfolds
      (push target arena ⟨shape, items.map shapeOf⟩).2 (.function part (items.map partOf)) := by
  have grown := (pushParams_builds target (pushOption target arena shape).1
    (items.map shapeOf)).1.extended
  exact Arena.Parts.push (.function _ _)
    (((pushOption_parts result arena).mono grown).append (pushParams_parts each _))

end Signature

namespace Sketch
variable {s : Sketch} {target : Target} {v function : TypeVar} {size : Nat} {tree other : TypeTree}

/-- The tree that a sketch gives to the value of a variable. -/
inductive Reads (s : Sketch) (target : Target) : TypeVar → Nat → TypeTree → Prop where
  /-- A value through which nothing is reached has the type of its bounds. -/
  | atom {v : TypeVar} {size : Nat} {bounds : Bounds} {tree : TypeTree}
    (closed : ∀ d, ¬ s.Dereferences v d) (bounded : s.get? v = some bounds)
    (alone : (Arena.pushBounds {} target.sealedTypes bounds.lower bounds.upper size).1.Unfolds
      (Arena.pushBounds {} target.sealedTypes bounds.lower bounds.upper size).2 tree) :
    Reads s target v size tree
  | pointer {v : TypeVar} {size : Nat} {d : Deref} {tree : TypeTree}
    (decides : s.Decides v d) (only : ∀ e, s.Dereferences v e → e.offset = 0)
    (inner : Reads s target (d.reach v) d.size.toNat tree) :
    Reads s target v size (.pointer tree target.pointerSize)
  /-- There is a field for each offset that is not negative, and the fields just fit, as far as their
  ends are counted in 64 bits. -/
  | record {v : TypeVar} {size width : Nat} {ds : List Deref} {treeOf : Deref → TypeTree}
    (spread : ∃ e, s.Dereferences v e ∧ e.offset ≠ 0)
    (increasing : ds.Pairwise fun a b => a.offset < b.offset)
    (listed : ∀ d, d ∈ ds ↔ s.Decides v d ∧ 0 ≤ d.offset)
    (wide : ∀ bound, width ≤ bound ↔ ∀ d ∈ ds, d.limit.toNat ≤ bound)
    (inner : ∀ d ∈ ds, Reads s target (d.reach v) d.size.toNat (treeOf d)) :
    Reads s target v size (.pointer
      (.struct width (ds.map fun d => (d.offset.toInt.toNat, treeOf d))) target.pointerSize)

/-- What a function has where a variable stands for it: nothing, unless the variable is a node. -/
def ReadsPart (s : Sketch) (target : Target) (v : TypeVar) : Option TypeTree → Prop
  | none => ¬ s.nodes.contains v
  | some tree => s.nodes.contains v ∧ s.Reads target v target.registerSize tree

inductive ReadsFunction (s : Sketch) (target : Target) (function : TypeVar) : TypeTree → Prop where
  | intro {ret : Option TypeTree} {params : List (Option TypeTree)}
    (result : s.ReadsPart target (function.extend .output) ret)
    (count : s.Counts function params.length)
    (arguments : ∀ index : UInt64, index.toNat < params.length →
      s.ReadsPart target (function.extend (.input index)) params[index.toNat]?.join) :
    ReadsFunction s target function (.function ret params)

theorem Reads.unique (first : s.Reads target v size tree) (second : s.Reads target v size other) :
    tree = other := by
  induction first generalizing other with
  | atom closed bounded alone =>
    cases second with
    | atom _ bounded' alone' =>
      obtain rfl := Option.some.inj (bounded.symm.trans bounded')
      exact alone.unique alone'
    | pointer decides => exact absurd decides.found (closed _)
    | record spread =>
      obtain ⟨e, there, _⟩ := spread
      exact absurd there (closed e)
  | pointer decides only _ ih =>
    cases second with
    | atom closed => exact absurd decides.found (closed _)
    | pointer decides' _ inner =>
      have same := (only _ decides.found).trans (only _ decides'.found).symm
      obtain rfl := decides.unique decides' same
      rw [ih inner]
    | record spread =>
      obtain ⟨e, there, elsewhere⟩ := spread
      exact absurd (only e there) elsewhere
  | @record v size width ds treeOf spread increasing listed wide inner ih =>
    obtain ⟨e, there, elsewhere⟩ := spread
    cases second with
    | atom closed => exact absurd there (closed e)
    | pointer _ only => exact absurd (only e there) elsewhere
    | @record _ _ width' ds' treeOf' _ increasing' listed' wide' inner' =>
      obtain rfl : ds = ds' := by
        apply OrdMap.eq_of_increasing (fun a b up down => ?_) increasing increasing'
        · exact fun d => (listed d).trans (listed' d).symm
        · exact Int64.lt_irrefl (Int64.lt_trans up down)
      obtain rfl : width = width' := by
        apply Nat.le_antisymm
        · exact (wide _).mpr ((wide' _).mp (Nat.le_refl _))
        · exact (wide' _).mpr ((wide _).mp (Nat.le_refl _))
      congr 2
      apply List.map_congr_left
      intro d inside
      rw [ih d inside (inner' d inside)]

theorem ReadsPart.unique {part part' : Option TypeTree} (first : s.ReadsPart target v part)
    (second : s.ReadsPart target v part') : part = part' := by
  cases part with
  | none =>
    cases part' with
    | none => rfl
    | some _ => exact absurd second.1 first
  | some _ =>
    cases part' with
    | none => exact absurd first.1 second
    | some _ => rw [first.2.unique second.2]

theorem ReadsFunction.unique (first : s.ReadsFunction target function tree)
    (second : s.ReadsFunction target function other) : tree = other := by
  obtain @⟨_, params, result, count, arguments⟩ := first
  obtain @⟨_, params', result', count', arguments'⟩ := second
  rw [result.unique result']
  congr 1
  apply List.ext_getElem (count.unique count')
  intro n inside inside'
  -- Arguments are counted in 64 bits, so each place below the count is the index of one.
  have word : (UInt64.ofNat n).toNat = n :=
    UInt64.toNat_ofNat_of_lt' (Nat.lt_trans inside count.lt_size)
  have same := (arguments (.ofNat n) (word.symm ▸ inside)).unique
    (arguments' (.ofNat n) (word.symm ▸ inside'))
  rwa [word, List.getElem?_eq_getElem inside, List.getElem?_eq_getElem inside'] at same

private theorem spread_of_entries (occupied : (s.derefs v).entries ≠ [])
    (several : ∀ n w, (s.derefs v).entries ≠ [(0, n, w)]) :
    ∃ e, s.Dereferences v e ∧ e.offset ≠ 0 := by
  have elsewhere : ∃ entry ∈ (s.derefs v).entries, entry.1 ≠ 0 := by
    have sorted := (s.derefs v).increasing
    generalize (s.derefs v).entries = entries at occupied several sorted ⊢
    cases entries with
    | nil => exact absurd rfl occupied
    | cons first rest =>
      obtain ⟨o, n, w⟩ := first
      by_cases zero : o = 0
      · cases rest with
        | nil => exact absurd (zero ▸ rfl) (several n w)
        | cons second rest =>
          have less := (List.pairwise_cons.mp sorted).1 second List.mem_cons_self
          have order : o < second.1 := Std.compare_eq_lt.mp less
          exact ⟨second, by simp, by omega⟩
      · exact ⟨_, List.mem_cons_self, zero⟩
  obtain ⟨entry, listed, nonzero⟩ := elsewhere
  obtain ⟨d, decides, rfl⟩ := mem_derefs.mp listed
  exact ⟨d, decides.found, fun zero => nonzero (congrArg Int64.toInt zero)⟩

private theorem exists_reads_record {shapeOf : TypeVar → Shape}
    (spread : ∃ e, s.Dereferences v e ∧ e.offset ≠ 0)
    (below : ∀ d, s.Decides v d → ∃ tree, s.Reads target (d.reach v) d.size.toNat tree ∧
      (shapeOf (d.reach v)).Becomes target d.size.toNat tree) (skipped : List TypeVar) :
    ∃ tree, s.Reads target v size tree ∧
      (Shape.record skipped (s.fieldsOf v shapeOf)).Becomes target size tree := by
  obtain ⟨ds, increasing, listed, entries⟩ := s.exists_decisions v
  choose! treeOf reads becomes using below
  have fields : s.fieldsOf v shapeOf = ds.map fun d =>
      (d.offset.toInt.toNat, d.size.toNat, shapeOf (d.reach v)) := by
    rw [fieldsOf, ← entries, List.map_map]
    rfl
  have wide (bound : Nat) : extent (s.fieldsOf v shapeOf) ≤ bound ↔
      ∀ d ∈ ds, d.limit.toNat ≤ bound := by
    rw [fields, extent_le_iff, List.forall_mem_map]
    rfl
  have inner : ∀ d ∈ ds, s.Reads target (d.reach v) d.size.toNat (treeOf d) :=
    fun d inside => reads d ((listed d).mp inside).1
  refine ⟨_, .record spread increasing listed wide inner, ?_⟩
  rw [fields]
  exact Shape.becomes_record (fun d inside => becomes d ((listed d).mp inside).1) skipped

theorem exists_reads {depth : Nat} (node : s.nodes.contains v) (deep : s.room v ≤ depth)
    (size : Nat) :
    ∃ tree, s.Reads target v size tree ∧ (s.shapeTo depth v).Becomes target size tree := by
  induction depth generalizing v size with
  | zero => exact absurd (room_pos (mem_nodes_iff.mpr node)) (by omega)
  | succ depth ih =>
    -- A dereference leads to a node with a longer path, and so to one with less room below it.
    have below {d : Deref} (decides : s.Decides v d) : ∃ tree,
        s.Reads target (d.reach v) d.size.toNat tree ∧
          (s.shapeTo depth (d.reach v)).Becomes target d.size.toNat tree := by
      have shorter : s.room (d.reach v) < s.room v := by
        apply room_lt (mem_nodes_iff.mpr node)
        simp [Deref.reach, TypeVar.extend]
      exact ih decides.found.reached (by omega) _
    rw [shapeTo]
    split
    next entries =>
      obtain ⟨bounds, bounded⟩ := (OrdMap.contains_iff _ _).mp node
      have known : s.boundsOf v = bounds := by
        rw [boundsOf, get?, bounded, Option.getD_some]
      obtain ⟨tree, everywhere⟩ :=
        Arena.pushBounds_unfolds target.sealedTypes bounds.lower bounds.upper size
      refine ⟨tree, .atom ?_ bounded (everywhere {}), known ▸ everywhere⟩
      intro d there
      obtain ⟨e, decides, _⟩ := there.exists_decides
      have listed := mem_derefs.mpr ⟨e, decides, rfl⟩
      simp [entries] at listed
    next n w entries =>
      obtain ⟨d, decides, same⟩ := mem_derefs.mp (entries ▸ List.mem_singleton_self (0, n, w))
      obtain ⟨rfl, rfl⟩ := Prod.mk.inj (Prod.mk.inj same).2
      obtain ⟨tree, reads, becomes⟩ := below decides
      refine ⟨_, .pointer decides ?_ reads, becomes.pointer⟩
      intro e there
      obtain ⟨d', decides', same⟩ := there.exists_decides
      have listed := mem_derefs.mpr ⟨d', decides', rfl⟩
      rw [entries, List.mem_singleton] at listed
      rw [← same]
      exact Int64.toInt_inj.mp (Prod.mk.inj listed).1
    next occupied several =>
      exact exists_reads_record (spread_of_entries occupied several) (fun d => below) _

private theorem exists_readsPart (s : Sketch) (target : Target) (child : Option TypeVar)
    (node : ∀ w, child = some w → w ∈ s.nodes.keys) :
    ∃ part, Signature.Becomes target (child.map s.shape) part ∧
      ∀ v, (∀ w, child = some w ↔ w = v ∧ w ∈ s.nodes.keys) → s.ReadsPart target v part := by
  cases child with
  | none =>
    refine ⟨none, .none, ?_⟩
    intro v same there
    simpa using (same v).mpr ⟨rfl, mem_nodes_iff.mpr there⟩
  | some w =>
    have there := mem_nodes_iff.mp (node w rfl)
    obtain ⟨tree, reads, becomes⟩ := exists_reads there (room_le_size s w) target.registerSize
    refine ⟨some tree, .some becomes, ?_⟩
    intro v same
    obtain ⟨rfl, _⟩ := (same w).mp rfl
    exact ⟨there, reads⟩

theorem param?_toNat_eq_some_iff {index : UInt64} {w : TypeVar} :
    s.param? function index.toNat = some w ↔
      w = function.extend (.input index) ∧ w ∈ s.nodes.keys := by
  rw [param?_eq_some_iff]
  constructor
  · rintro ⟨other, same, rfl, inside⟩
    obtain rfl := UInt64.toNat_inj.mp same
    exact ⟨rfl, inside⟩
  · rintro ⟨rfl, inside⟩
    exact ⟨index, rfl, rfl, inside⟩

theorem exists_readsFunction (s : Sketch) (target : Target) (function : TypeVar) :
    ∃ tree, s.ReadsFunction target function tree ∧
      ∀ arena, ((s.signature function).push target arena).1.Unfolds
        ((s.signature function).push target arena).2 tree := by
  obtain ⟨ret, result, returned⟩ := s.exists_readsPart target (s.result? function)
    fun w found => (result?_eq_some_iff.mp found).2
  have argument (i : Nat) := s.exists_readsPart target (s.param? function i) fun w found => by
    obtain ⟨_, _, _, inside⟩ := param?_eq_some_iff.mp found
    exact inside
  choose partOf each passed using argument
  refine ⟨.function ret ((List.range (s.paramCount function)).map partOf), ⟨?_, ?_, ?_⟩,
    Signature.push_unfolds result fun i _ => each i⟩
  · exact returned _ fun w => result?_eq_some_iff
  · rw [List.length_map, List.length_range]
    exact s.counts_paramCount function
  · intro index bound
    rw [List.length_map, List.length_range] at bound
    rw [List.getElem?_map, List.getElem?_range bound]
    exact passed _ _ fun w => param?_toNat_eq_some_iff

end Sketch

def Inferred.Unfolds (inferred : Inferred) (function : TypeVar) (tree : TypeTree) : Prop :=
  ∃ h, inferred.roots.get? function = some h ∧ inferred.arena.Unfolds h tree

namespace Sketches
variable {sketches : Sketches} {target : Target} {function : TypeVar} {s : Sketch} {tree : TypeTree}

theorem infer_unfolds_iff (base : function.isBase) (known : sketches.get? function = some s)
    (unfolds : ∀ arena, ((s.signature function).push target arena).1.Unfolds
      ((s.signature function).push target arena).2 tree) (other : TypeTree) :
    (sketches.infer target).Unfolds function other ↔ other = tree := by
  obtain ⟨_, roots, keys⟩ := @infer_roots
    (fun v arena h => v = function → arena.Unfolds h tree) sketches target
    (fun v a b h extended before same => (before same).mono extended)
    (by
      intro entry listed arena same
      obtain ⟨_, s', known', signature⟩ := mem_signatures.mp listed
      rw [same] at known' signature
      obtain rfl := Option.some.inj (known.symm.trans known')
      rw [signature]
      exact unfolds arena)
  have present : (sketches.infer target).roots.contains function := by
    rw [keys, exists_mem_signatures_iff, OrdMap.contains_iff]
    exact ⟨base, s, known⟩
  obtain ⟨h, root⟩ := (OrdMap.contains_iff _ _).mp present
  have whole := (roots function h root).2 rfl
  constructor
  · rintro ⟨h', root', unfolds'⟩
    obtain rfl := Option.some.inj (root.symm.trans root')
    exact unfolds'.unique whole
  · rintro rfl
    exact ⟨h, root, whole⟩

/-- A function has the one tree that its sketch gives to it, whatever other sketches there are. -/
theorem infer_apart (sketches : Sketches) (target : Target) (base : function.isBase)
    (known : sketches.get? function = some s) : ∃ tree,
      (∀ other, (sketches.infer target).Unfolds function other ↔ other = tree) ∧
      (∀ other, (infer (OrdMap.ofList [(function, s)]) target).Unfolds function other ↔
        other = tree) ∧
      ∀ other, s.ReadsFunction target function other ↔ other = tree := by
  obtain ⟨tree, reads, unfolds⟩ := s.exists_readsFunction target function
  refine ⟨tree, infer_unfolds_iff base known unfolds, infer_unfolds_iff base ?_ unfolds, ?_⟩
  · exact OrdMap.get?_insert_self _ _ _
  · intro other
    constructor
    · exact fun given => given.unique reads
    · rintro rfl
      exact reads

/-- A pointer that is read and written for several sizes at the same offsets. -/
def mixed : Sketch where
  root := ⟨"g", []⟩
  nodes := OrdMap.ofList
    ([[], [.load], [.load, .deref 8 0], [.load, .deref 4 0], [.store], [.store, .deref 2 0],
      [.store, .deref 2 8], [.store, .deref 1 (-4)]].map fun path =>
        (⟨"g", .input 0 :: path⟩, ⟨Ground.int.toVar, Ground.top.toVar⟩))

def crowd : Sketches := OrdMap.ofList
  [(⟨"f", []⟩, (⟨⟨"f", []⟩, ∅⟩ : Sketch).add ⟨"f", [.output]⟩ ⟨Ground.int.toVar, Ground.top.toVar⟩),
    (⟨"g", []⟩, mixed)]

theorem infer_apart_crowd :
    let target : Target := ⟨∅, 8, 8⟩
    let tree : TypeTree := .function none [some (.pointer
      (.struct 10 [(0, .node (.int 4 true) []), (8, .node (.int 2 true) [])]) 8)]
    crowd.get? ⟨"g", []⟩ = some mixed ∧
      (∀ other, (crowd.infer target).Unfolds ⟨"g", []⟩ other ↔ other = tree) ∧
      (∀ other, (infer (OrdMap.ofList [(⟨"g", []⟩, mixed)]) target).Unfolds ⟨"g", []⟩ other ↔
        other = tree) ∧
      ∀ other, mixed.ReadsFunction target ⟨"g", []⟩ other ↔ other = tree := by
  intro target tree
  have known : crowd.get? ⟨"g", []⟩ = some mixed := by decide +kernel
  obtain ⟨given, whole, alone, reads⟩ := infer_apart crowd target (by decide) known
  have root : (crowd.infer target).roots.get? ⟨"g", []⟩ = some 6 := by decide +kernel
  let built : Arena := ⟨#[.int 8 true, .function (some 0) [], .int 4 true, .int 2 true,
    .struct none 10 [⟨0, some 2⟩, ⟨8, some 3⟩], .pointer (some 4) 8, .function none [some 5]]⟩
  have arena : (crowd.infer target).arena = built := by decide +kernel
  have unfolds : built.Unfolds 6 tree := by
    have first : built.Unfolds 2 _ := Arena.parts_nil.unfolds (.int 4 true) rfl
    have second : built.Unfolds 3 _ := Arena.parts_nil.unfolds (.int 2 true) rfl
    have record : built.Unfolds 4 _ := (first.single.append second.single).unfolds
      (.struct none 10 [⟨0, some 2⟩, ⟨8, some 3⟩]) rfl
    have pointer : built.Unfolds 5 _ := record.single.unfolds (.pointer (some 4) 8) rfl
    exact (Arena.parts_absent.append pointer.single).unfolds (.function none [some 5]) rfl
  obtain rfl : tree = given := (whole tree).mp ⟨6, root, arena ▸ unfolds⟩
  exact ⟨known, whole, alone, reads⟩

end Sketches
end TypeRecovery
