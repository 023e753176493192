import TypeRecovery.Proofs.Concrete.Arenas
import TypeRecovery.Proofs.Lattice.Sealed
import TypeRecovery.Proofs.Prototype.Entering
import TypeRecovery.Proofs.Sketch.Signatures

/-! What is put into an arena for a shape is the type that the shape depicts, node by node. A type
that is sealed is not taken apart: a pointer to its mark stands for it. -/
namespace TypeRecovery

/-- The nodes from a handle on are those of a type of the table. -/
inductive Arena.Encodes (arena : Arena) (types : TypeTable) : Handle → NodeId → Prop where
  | scalar {h : Handle} {id : NodeId} {node : TypeNode} {shown : Concrete}
    (there : arena.get? h = some shown) (found : types.get? id = some node)
    (scalar : node.Scalar) (mirrors : shown.Mirrors [] node) : Encodes arena types h id
  | sealed {h mark : Handle} {id : NodeId} {size : Nat}
    (there : arena.get? h = some (.pointer (some mark) size))
    (marked : arena.get? mark = some (.sealed id)) (whole : types.Whole id) :
    Encodes arena types h id
  | pointer {h under : Handle} {id target : NodeId} {size : Nat}
    (there : arena.get? h = some (.pointer (some under) size))
    (found : types.get? id = some (.pointer (some target))) (parted : ¬ types.Whole id)
    (inner : Encodes arena types under target) : Encodes arena types h id
  | record {h under : Handle} {id target : NodeId} {size width : Nat}
    {cells : List (Nat × NodeId × Handle)}
    (there : arena.get? h = some (.pointer (some under) size))
    (laid : arena.get? under =
      some (.struct none width (cells.map fun cell => ⟨cell.1, some cell.2.2⟩)))
    (found : types.get? id = some (.pointer (some target))) (parted : ¬ types.Whole id)
    (present : types.get? target =
      some (.struct width (cells.map fun cell => (cell.1, cell.2.1))))
    (solid : cells ≠ [])
    (inner : ∀ cell ∈ cells, Encodes arena types cell.2.2 cell.2.1) : Encodes arena types h id

theorem Arena.Encodes.mono {a b : Arena} {types : TypeTable} {h : Handle} {id : NodeId}
    (encodes : a.Encodes types h id) (extended : a.Extends b) : b.Encodes types h id := by
  induction encodes with
  | scalar there found scalar mirrors =>
    exact .scalar (extended _ _ there) found scalar mirrors
  | sealed there marked whole =>
    exact .sealed (extended _ _ there) (extended _ _ marked) whole
  | pointer there found parted inner ih => exact .pointer (extended _ _ there) found parted ih
  | record there laid found parted present solid inner ih =>
    exact .record (extended _ _ there) (extended _ _ laid) found parted present solid ih

/-- The atom of a scalar leads back to the scalar, whatever size is asked for. -/
theorem TypeNode.Scalar.exists_ground {node : TypeNode} {name : String} (scalar : node.Scalar)
    (named : node.IsNamed name) : ∃ (g : Ground) (shown : Concrete), name = g.name ∧
      shown.Mirrors [] node ∧ ∀ arena size, g.concrete? arena size = some (arena, shown) := by
  cases scalar with
  | void =>
    cases named
    exact ⟨.void, .void, rfl, .void, fun _ _ => rfl⟩
  | bool =>
    cases named
    exact ⟨.bool, .bool, rfl, .bool, fun _ _ => rfl⟩
  | char width =>
    simp only [List.mem_cons, List.not_mem_nil, or_false] at width
    rcases width with rfl | rfl | rfl
    · cases named with
      | char => exact ⟨.char, .char 1, rfl, .char 1, fun _ _ => rfl⟩
      | wide wide => exact absurd rfl wide
    · cases named
      exact ⟨.char16, .char 2, by decide, .char 2, fun _ _ => rfl⟩
    · cases named
      exact ⟨.char32, .char 4, by decide, .char 4, fun _ _ => rfl⟩
  | @int size signed width =>
    have known : ∃ w : IntWidth, Text.bitsText size = Nat.repr w.bits ∧ w.bits / 8 = size := by
      simp only [List.mem_cons, List.not_mem_nil, or_false] at width
      rcases width with rfl | rfl | rfl | rfl | rfl
      exacts [⟨.w8, rfl, rfl⟩, ⟨.w16, rfl, rfl⟩, ⟨.w32, rfl, rfl⟩, ⟨.w64, rfl, rfl⟩,
        ⟨.w128, rfl, rfl⟩]
    obtain ⟨w, bits, bytes⟩ := known
    cases named with
    | signed =>
      refine ⟨.signed w, .int size true, ?_, .int size true, fun arena _ => ?_⟩
      · rw [bits, Ground.name]
      · rw [Ground.concrete?, bytes]
    | unsigned =>
      refine ⟨.unsigned w, .int size false, ?_, .int size false, fun arena _ => ?_⟩
      · rw [bits, Ground.name]
      · rw [Ground.concrete?, bytes]
  | @float size width =>
    have known : ∃ w : FloatWidth, Text.bitsText size = Nat.repr w.bits ∧ w.bits / 8 = size := by
      simp only [List.mem_cons, List.not_mem_nil, or_false] at width
      rcases width with rfl | rfl | rfl | rfl
      exacts [⟨.w32, rfl, rfl⟩, ⟨.w64, rfl, rfl⟩, ⟨.w80, rfl, rfl⟩, ⟨.w128, rfl, rfl⟩]
    obtain ⟨w, bits, bytes⟩ := known
    cases named
    refine ⟨.floating w, .float size, ?_, .float size, fun arena _ => ?_⟩
    · rw [bits, Ground.name]
    · rw [Ground.concrete?, bytes]

section
variable {types : TypeTable} {pointerSize : Nat} {sealedTypes : SealedTypes}

/-- Sealed types are looked up by their own atoms. -/
def SealedTypes.Keyed (sealedTypes : SealedTypes) : Prop :=
  ∀ v id, sealedTypes.get? v = some id → v = Reading.sealedAtom id

theorem SealedTypes.Keyed.get?_ground (keyed : sealedTypes.Keyed) (g : Ground) :
    sealedTypes.get? g.toVar = none := by
  cases found : sealedTypes.get? g.toVar with
  | none => rfl
  | some id =>
    have same := congrArg TypeVar.ground? (keyed _ _ found)
    rw [Ground.ground?_toVar, Reading.sealedAtom_ground?] at same
    contradiction

private theorem decisiveBound_bounds (side : Side) {g : Ground} (other : g ≠ .top) :
    decisiveBound (side.bounds g.toVar).lower (side.bounds g.toVar).upper = g.toVar := by
  have name : g.name ≠ Ground.top.name := by
    intro same
    apply other
    apply Ground.toVar_injective
    rw [Ground.toVar, same, Ground.toVar]
  cases side with
  | left => simp [decisiveBound, Side.bounds, Ground.toVar, AtomLattice.bottom, name]
  | right => simp [decisiveBound, Side.bounds, AtomLattice.top, Ground.toVar]

private theorem Arena.pushBounds_of_ground (keyed : sealedTypes.Keyed) (side : Side) (arena : Arena)
    (size : Nat) {g : Ground} {shown : Concrete}
    (made : g.concrete? arena size = some (arena, shown)) :
    arena.pushBounds sealedTypes (side.bounds g.toVar).lower (side.bounds g.toVar).upper size =
      arena.push shown := by
  have other : g ≠ .top := by
    intro same
    rw [same, Ground.concrete?] at made
    contradiction
  have unsealed : (sealedTypes.get? (side.bounds g.toVar).lower).or
      (sealedTypes.get? (side.bounds g.toVar).upper) = none := by
    cases side with
    | left =>
      rw [Side.bounds, AtomLattice.bottom, keyed.get?_ground, keyed.get?_ground]
      rfl
    | right =>
      rw [Side.bounds, AtomLattice.top, keyed.get?_ground, keyed.get?_ground]
      rfl
  have found : (decisiveBound (side.bounds g.toVar).lower (side.bounds g.toVar).upper).ground?.bind
      (Ground.concrete? arena size) = some (arena, shown) := by
    rw [decisiveBound_bounds side other, Ground.ground?_toVar]
    exact made
  unfold pushBounds
  rw [unsealed, found]

private theorem Arena.pushBounds_of_sealed (keyed : sealedTypes.Keyed) (side : Side) (arena : Arena)
    (size : Nat) {id : NodeId}
    (registered : sealedTypes.get? (Reading.sealedAtom id) = some id) :
    arena.pushBounds sealedTypes (side.bounds (Reading.sealedAtom id)).lower
      (side.bounds (Reading.sealedAtom id)).upper size =
      (arena.push (.sealed id)).1.push (.pointer (some (arena.push (.sealed id)).2) size) := by
  have found : (sealedTypes.get? (side.bounds (Reading.sealedAtom id)).lower).or
      (sealedTypes.get? (side.bounds (Reading.sealedAtom id)).upper) = some id := by
    cases side with
    | left =>
      rw [Side.bounds, AtomLattice.bottom, keyed.get?_ground]
      exact registered
    | right =>
      rw [Side.bounds, registered]
      rfl
  unfold pushBounds
  rw [found]

private theorem Arena.encodes_pushBounds (keyed : sealedTypes.Keyed) (side : Side) (arena : Arena)
    (size : Nat) {id : NodeId} {atom : TypeVar} (tip : types.Tip id atom)
    (representable : types.Representable pointerSize id)
    (registered : types.Whole id → sealedTypes.get? (Reading.sealedAtom id) = some id) :
    (arena.pushBounds sealedTypes (side.bounds atom).lower (side.bounds atom).upper size).1.Encodes
      types
      (arena.pushBounds sealedTypes (side.bounds atom).lower (side.bounds atom).upper size).2 id := by
  cases tip with
  | @scalar node name found named =>
    have scalar := representable.scalar_of_isNamed found named
    obtain ⟨g, shown, rfl, mirrors, made⟩ := scalar.exists_ground named
    have pushed := arena.pushBounds_of_ground keyed side size (made arena size)
    rw [Ground.toVar] at pushed
    rw [pushed]
    exact .scalar push_self found scalar mirrors
  | whole whole =>
    rw [arena.pushBounds_of_sealed keyed side size (registered whole)]
    apply Encodes.sealed push_self _ whole
    exact push_extends _ _ push_self

variable {target : Target}

private theorem Shape.encodes_pushFields (width : Nat × NodeId → Nat)
    {shapeOf : Nat × NodeId → Shape}
    (fields : List (Nat × NodeId)) (arena : Arena)
    (each : ∀ field ∈ fields, ∀ arena size,
      ((shapeOf field).push target arena size).1.Encodes types
        ((shapeOf field).push target arena size).2 field.2) :
    let parts := fields.map fun field => (field.1, width field, shapeOf field)
    ∃ cells : List (Nat × NodeId × Handle),
      fields = cells.map (fun cell => (cell.1, cell.2.1)) ∧
      (Shape.pushFields target arena parts).2 =
        cells.map (fun cell => ⟨cell.1, some cell.2.2⟩) ∧
      ∀ cell ∈ cells,
        (Shape.pushFields target arena parts).1.Encodes types cell.2.2 cell.2.1 := by
  induction fields generalizing arena with
  | nil => exact ⟨[], rfl, rfl, by simp⟩
  | cons field rest ih =>
    have first := each field List.mem_cons_self arena (width field)
    obtain ⟨cells, same, pushed, encodes⟩ :=
      ih ((shapeOf field).push target arena (width field)).1
        fun field inside => each field (List.mem_cons_of_mem _ inside)
    have later := (Shape.pushFields_builds target ((shapeOf field).push target arena (width field)).1
      (rest.map fun field => (field.1, width field, shapeOf field))).1.extended
    refine ⟨(field.1, field.2, ((shapeOf field).push target arena (width field)).2) :: cells,
      ?_, ?_, ?_⟩
    · rw [List.map_cons, ← same]
    · rw [List.map_cons, List.map_cons, ← pushed]
      rfl
    · intro cell inside
      rcases List.mem_cons.mp inside with rfl | inside
      · exact first.mono later
      · exact encodes cell inside

theorem Depicts.encodes_push {shape : Shape} {id : NodeId} (keyed : target.sealedTypes.Keyed)
    (depicts : Depicts types pointerSize target.sealedTypes shape id) (arena : Arena)
    (size : Nat) :
    (shape.push target arena size).1.Encodes types (shape.push target arena size).2 id := by
  induction depicts generalizing arena size with
  | @tip side id atom tip representable registered =>
    exact arena.encodes_pushBounds keyed side size tip representable registered
  | @pointer id pointee shape width found parted inner ih =>
    have inside := ih arena width
    exact .pointer Arena.push_self found parted (inside.mono Arena.push_extends)
  | @record id pointee fields shapeOf parts listed found parted present solid inner ih =>
    subst listed
    obtain ⟨cells, rfl, pushed, encodes⟩ :=
      Shape.encodes_pushFields (fun field => types.width pointerSize field.2) fields arena
        fun field inside => ih field inside
    refine .record Arena.push_self (Arena.push_extends _ _ ?_) found parted present ?_ ?_
    · rw [← pushed]
      exact Arena.push_self
    · intro empty
      rw [empty] at solid
      exact solid rfl
    · intro cell inside
      exact ((encodes cell inside).mono Arena.push_extends).mono Arena.push_extends

namespace Signature

private theorem encodes_pushParams {shapes : List Shape} {params : List NodeId}
    (keyed : target.sealedTypes.Keyed) (arena : Arena)
    (depict : List.Forall₂ (Depicts types pointerSize target.sealedTypes) shapes params) :
    ∃ handles : List Handle, (pushParams target arena (shapes.map some)).2 = handles.map some ∧
      List.Forall₂ ((pushParams target arena (shapes.map some)).1.Encodes types)
        handles params := by
  induction depict generalizing arena with
  | nil => exact ⟨[], rfl, .nil⟩
  | @cons shape id shapes params depicts rest ih =>
    have first := depicts.encodes_push keyed arena target.registerSize
    obtain ⟨handles, pushed, encodes⟩ := ih (shape.push target arena target.registerSize).1
    have later := (pushParams_builds target (shape.push target arena target.registerSize).1
      (shapes.map some)).1.extended
    refine ⟨(shape.push target arena target.registerSize).2 :: handles, ?_, ?_⟩
    · rw [List.map_cons, List.map_cons, ← pushed]
      rfl
    · exact .cons (first.mono later) encodes

end Signature

/-- The node at a handle is that of a function, and the nodes of its result and its arguments are
those of types. -/
def Arena.EncodesFunction (arena : Arena) (types : TypeTable) (h : Handle) (ret : NodeId)
    (params : List NodeId) : Prop :=
  ∃ (result : Handle) (handles : List Handle),
    arena.get? h = some (.function (some result) (handles.map some)) ∧
    arena.Encodes types result ret ∧ List.Forall₂ (arena.Encodes types) handles params

theorem Arena.EncodesFunction.mono {a b : Arena} {h : Handle} {ret : NodeId}
    {params : List NodeId} (encodes : a.EncodesFunction types h ret params)
    (extended : a.Extends b) : b.EncodesFunction types h ret params := by
  obtain ⟨result, handles, there, first, rest⟩ := encodes
  refine ⟨result, handles, extended _ _ there, first.mono extended, ?_⟩
  exact rest.imp fun _ _ encodes => encodes.mono extended

theorem Signature.encodes_push {signature : Signature} {shape : Shape} {shapes : List Shape}
    {ret : NodeId} {params : List NodeId} (keyed : target.sealedTypes.Keyed)
    (same : signature = ⟨some shape, shapes.map some⟩)
    (result : Depicts types pointerSize target.sealedTypes shape ret)
    (arguments : List.Forall₂ (Depicts types pointerSize target.sealedTypes) shapes params)
    (arena : Arena) :
    (signature.push target arena).1.EncodesFunction types (signature.push target arena).2 ret
      params := by
  subst same
  have first := result.encodes_push keyed arena target.registerSize
  obtain ⟨handles, pushed, encodes⟩ :=
    encodes_pushParams keyed (shape.push target arena target.registerSize).1 arguments
  have later := (pushParams_builds target (shape.push target arena target.registerSize).1
    (shapes.map some)).1.extended
  refine ⟨(shape.push target arena target.registerSize).2, handles, ?_, ?_, ?_⟩
  · rw [← pushed]
    exact Arena.push_self
  · exact (first.mono later).mono Arena.push_extends
  · exact encodes.imp fun _ _ encodes => encodes.mono Arena.push_extends

end
end TypeRecovery
