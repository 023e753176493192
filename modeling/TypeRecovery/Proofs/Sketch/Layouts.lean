import TypeRecovery.Proofs.Prototype.Completion
import TypeRecovery.Proofs.Sketch.Signatures

/-! What types read off sketches look like, for any sketches and sizes. Every structure has a field
for each dereference of some node that is not at a negative offset, in the order of the offsets, and
is long enough for all of them. Every root is a function with just the arguments and the result that
its sketch has nodes for. Lengths and arguments are counted in 64 bits, which has to be enough for
them. Such types can always be recorded. -/
namespace TypeRecovery

def Label.Narrow : Label → Prop
  | input index => index.toNat + 1 < 2 ^ 64
  | deref size offset => offset.toInt.toNat + size.toNat < 2 ^ 64
  | output | load | store => True

instance : DecidablePred Label.Narrow
  | .input _ | .deref _ _ => inferInstanceAs (Decidable (_ < _))
  | .output | .load | .store => inferInstanceAs (Decidable True)

namespace Sketch

/-- No field ends and no argument is counted beyond 64 bits. -/
structure Narrow (s : Sketch) (function : TypeVar) : Prop where
  fields : ∀ v (offset : Nat) access, (s.derefs v).get? offset = some access →
    offset + access.1 < 2 ^ 64
  arguments : ∀ index, s.nodes.contains (function.extend (.input index)) → index.toNat + 1 < 2 ^ 64

/-- The fields are those of a structure for what is dereferenced through a node. -/
structure Lays (s : Sketch) (v : TypeVar) (size : Nat) (fields : List Field) : Prop where
  node : v ∈ s.nodes.keys
  increasing : fields.Pairwise fun a b => a.offset < b.offset
  typed : ∀ field ∈ fields, field.type.isSome
  accessed : ∀ field ∈ fields, ∃ access, (s.derefs v).get? field.offset = some access ∧
    field.offset + access.1 ≤ size
  complete : ∀ offset : Nat, (s.derefs v).contains offset → ∃ field ∈ fields, field.offset = offset

structure Fits (s : Sketch) (function : TypeVar) (ret : Option Handle)
    (params : List (Option Handle)) : Prop where
  result : ret.isSome ↔ s.nodes.contains (function.extend .output)
  argument : ∀ index : UInt64, params[index.toNat]?.join.isSome ↔
    s.nodes.contains (function.extend (.input index))
  /-- There are so many as the greatest index of an argument asks for, or none. -/
  count : ∀ n, n < params.length ↔ ∃ index : UInt64, n ≤ index.toNat ∧
    s.nodes.contains (function.extend (.input index))

end Sketch

namespace Arena
variable {a b : Arena} {node : Concrete} {good : Nat → List Field → Prop}

/-- All structures of an arena have a good size and good fields. -/
def Structs (good : Nat → List Field → Prop) (a : Arena) : Prop :=
  ∀ h name size fields, a.get? h = some (.struct name size fields) → good size fields

private theorem structs_empty : ({} : Arena).Structs good := by
  intro h name size fields found
  simp [get?] at found

theorem Structs.push (structs : a.Structs good)
    (fine : ∀ name size fields, node = .struct name size fields → good size fields) :
    (a.push node).1.Structs good := by
  intro h name size fields found
  rw [push_get?] at found
  split at found
  next => exact fine name size fields (Option.some.inj found)
  next => exact structs h name size fields found

theorem Structs.concrete? {size : Nat} {g : Ground} (structs : a.Structs good)
    (made : g.concrete? a size = some (b, node)) : (b.push node).1.Structs good := by
  cases g with
  | bottom | top => simp [Ground.concrete?] at made
  | code | str =>
    obtain ⟨rfl, rfl⟩ := Prod.mk.inj (Option.some.inj made)
    exact (structs.push (by simp)).push (by simp)
  | _ =>
    obtain ⟨rfl, rfl⟩ := Prod.mk.inj (Option.some.inj made)
    exact structs.push (by simp)

theorem Structs.pushBounds (structs : a.Structs good) (sealedTypes : SealedTypes)
    (lower upper : TypeVar) (size : Nat) :
    (a.pushBounds sealedTypes lower upper size).1.Structs good := by
  unfold Arena.pushBounds
  split
  next => exact (structs.push (by simp)).push (by simp)
  next =>
    split
    next made =>
      obtain ⟨g, _, made⟩ := Option.bind_eq_some_iff.mp made
      exact structs.concrete? made
    next => exact (structs.push (by simp)).push (by simp)

end Arena

namespace Shape
variable (target : Target) (arena : Arena) {fields : List (Nat × Nat × Shape)}

variable {target arena} in
private theorem pushFields_structs {good : Nat → List Field → Prop} (structs : arena.Structs good)
    (each : ∀ field ∈ fields, ∀ arena : Arena, arena.Structs good →
      (field.2.2.push target arena field.2.1).1.Structs good) :
    (pushFields target arena fields).1.Structs good := by
  induction fields generalizing arena with
  | nil => exact structs
  | cons field rest ih =>
    apply ih
    · exact each field List.mem_cons_self arena structs
    · exact fun other inside => each other (List.mem_cons_of_mem field inside)

theorem pushFields_offsets :
    (pushFields target arena fields).2.map Field.offset = fields.map Prod.fst := by
  induction fields generalizing arena with
  | nil => rfl
  | cons field rest ih => exact congrArg (field.1 :: ·) (ih _)

private theorem pushFields_typed :
    ∀ field ∈ (pushFields target arena fields).2, field.type.isSome := by
  induction fields generalizing arena with
  | nil => simp [pushFields]
  | cons field rest ih => exact List.forall_mem_cons.mpr ⟨rfl, ih _⟩

end Shape

namespace Sketch
variable {s : Sketch} {v w function : TypeVar} {good : Nat → List Field → Prop}

private theorem narrow_of_labels (each : ∀ w ∈ s.nodes.keys, ∀ label ∈ w.path, label.Narrow) :
    s.Narrow function where
  fields v offset access found := by
    rw [derefs_get?, Option.map_eq_some_iff] at found
    obtain ⟨⟨o, size, w⟩, first, rfl⟩ := found
    obtain rfl : o = offset := by simpa using List.find?_some first
    obtain ⟨_, n, o, _, _, node, rfl, offsets, rfl⟩ := mem_accesses.mp (List.mem_of_find?_eq_some first)
    have narrow : offset + n.toNat < 2 ^ 64 := by
      simpa [Label.Narrow, ← offsets] using each _ node (.deref n o) (by simp [TypeVar.extend])
    exact narrow
  arguments index there := by
    have node := (OrdMap.mem_keys _ _).mpr ((OrdMap.contains_iff _ _).mp there)
    exact each _ node (.input index) (by simp [TypeVar.extend])

private theorem node_of_mem_derefs {offset : Int} {size : Nat}
    (found : (offset, size, w) ∈ (s.derefs v).entries) : w ∈ s.nodes.keys := by
  rw [← OrdMap.get?_eq_some_iff, derefs_get?, Option.map_eq_some_iff] at found
  obtain ⟨⟨other, access⟩, first, same⟩ := found
  obtain rfl : access = (size, w) := same
  obtain ⟨_, _, _, _, _, inside, _⟩ := mem_accesses.mp (List.mem_of_find?_eq_some first)
  exact inside

/-- The dereferences of a node that are not at a negative offset, with a shape for each. -/
def fieldsOf (s : Sketch) (v : TypeVar) (shapeOf : TypeVar → Shape) : List (Nat × Nat × Shape) :=
  ((s.derefs v).entries.filter fun entry => 0 ≤ entry.1).map fun entry =>
    (entry.1.toNat, entry.2.1, shapeOf entry.2.2)

theorem mem_fieldsOf {shapeOf : TypeVar → Shape} {field : Nat × Nat × Shape} :
    field ∈ s.fieldsOf v shapeOf ↔ ∃ w, (s.derefs v).get? field.1 = some (field.2.1, w) ∧
      field.2.2 = shapeOf w := by
  obtain ⟨offset, size, shape⟩ := field
  simp only [fieldsOf, List.mem_map, List.mem_filter, decide_eq_true_eq, Prod.exists,
    Prod.mk.injEq, OrdMap.get?_eq_some_iff]
  constructor
  · intro given
    obtain ⟨o, n, w, ⟨listed, positive⟩, same, rfl, rfl⟩ := given
    obtain rfl : o = offset := by omega
    exact ⟨w, listed, rfl⟩
  · intro given
    obtain ⟨w, listed, rfl⟩ := given
    exact ⟨offset, size, w, ⟨listed, by omega⟩, by omega, rfl, rfl⟩

private theorem fieldsOf_increasing {shapeOf : TypeVar → Shape} :
    (s.fieldsOf v shapeOf).Pairwise fun a b => a.1 < b.1 := by
  rw [fieldsOf, List.pairwise_map, List.pairwise_filter]
  apply (s.derefs v).increasing.imp
  intro a b less first second
  have order : a.1 < b.1 := Std.compare_eq_lt.mp less
  simp only [decide_eq_true_eq] at first second
  omega

private theorem lays_fieldsOf (narrow : s.Narrow function) (node : v ∈ s.nodes.keys)
    (shapeOf : TypeVar → Shape) (target : Target)
    (arena : Arena) : s.Lays v (extent (s.fieldsOf v shapeOf))
      (Shape.pushFields target arena (s.fieldsOf v shapeOf)).2 where
  node := node
  increasing := by
    rw [← List.pairwise_map, Shape.pushFields_offsets, List.pairwise_map]
    exact fieldsOf_increasing
  typed := Shape.pushFields_typed target arena
  accessed field pushed := by
    have offset := List.mem_map_of_mem (f := Field.offset) pushed
    rw [Shape.pushFields_offsets] at offset
    obtain ⟨part, listed, same⟩ := List.mem_map.mp offset
    obtain ⟨w, found, _⟩ := mem_fieldsOf.mp listed
    rw [← same]
    exact ⟨_, found, le_extent listed (narrow.fields v part.1 _ found)⟩
  complete offset there := by
    obtain ⟨⟨size, w⟩, found⟩ := (OrdMap.contains_iff _ _).mp there
    have listed : (offset, size, shapeOf w) ∈ s.fieldsOf v shapeOf :=
      mem_fieldsOf.mpr ⟨w, found, rfl⟩
    have pushed := List.mem_map_of_mem (f := Prod.fst) listed
    rw [← Shape.pushFields_offsets target arena] at pushed
    obtain ⟨field, inside, same⟩ := List.mem_map.mp pushed
    exact ⟨field, inside, same⟩

section
variable (narrow : s.Narrow function)
  (lays : ∀ v size fields, s.Lays v size fields → good size fields) (target : Target)
include narrow lays

private theorem push_shapeTo_structs (depth : Nat) (node : v ∈ s.nodes.keys) (arena : Arena)
    (size : Nat)
    (structs : arena.Structs good) :
    ((s.shapeTo depth v).push target arena size).1.Structs good := by
  induction depth generalizing v arena size with
  | zero => exact structs.pushBounds _ _ _ _
  | succ depth ih =>
    rw [shapeTo]
    split
    next => exact structs.pushBounds _ _ _ _
    next entries =>
      have inner := node_of_mem_derefs (entries ▸ List.mem_singleton_self _)
      exact (ih inner arena _ structs).push (by simp)
    next =>
      have pushed : (Shape.pushFields target arena (s.fieldsOf v (s.shapeTo depth))).1.Structs good := by
        apply Shape.pushFields_structs structs
        intro field inside arena structs
        obtain ⟨w, found, same⟩ := mem_fieldsOf.mp inside
        have inner := node_of_mem_derefs ((OrdMap.get?_eq_some_iff _ _ _).mp found)
        rw [same]
        exact ih inner arena _ structs
      refine (pushed.push ?_).push (by simp)
      intro name size fields same
      obtain ⟨-, rfl, rfl⟩ := Concrete.struct.inj same
      exact lays v _ _ (lays_fieldsOf narrow node _ target arena)

private theorem pushOption_structs (child : Option TypeVar)
    (node : ∀ v, child = some v → v ∈ s.nodes.keys) (arena : Arena)
    (structs : arena.Structs good) :
    (Signature.pushOption target arena (child.map s.shape)).1.Structs good := by
  cases child with
  | none => exact structs
  | some v => exact push_shapeTo_structs narrow lays target _ (node v rfl) arena _ structs

private theorem pushParams_structs (children : List (Option TypeVar))
    (nodes : ∀ v, some v ∈ children → v ∈ s.nodes.keys) (arena : Arena)
    (structs : arena.Structs good) :
    (Signature.pushParams target arena (children.map (Option.map s.shape))).1.Structs good := by
  induction children generalizing arena with
  | nil => exact structs
  | cons child rest ih =>
    apply ih
    · exact fun v inside => nodes v (List.mem_cons_of_mem child inside)
    · apply pushOption_structs narrow lays target child _ arena structs
      intro v same
      exact nodes v (same ▸ List.mem_cons_self)

end

theorem result?_eq_some_iff :
    s.result? function = some w ↔ w = function.extend .output ∧ w ∈ s.nodes.keys := by
  constructor
  · intro found
    obtain ⟨⟨label, x⟩, child, same⟩ := List.exists_of_findSome?_eq_some found
    obtain ⟨inside, rfl⟩ := mem_children.mp child
    cases label with
    | output =>
      obtain rfl := Option.some.inj same
      exact ⟨rfl, inside⟩
    | _ => simp at same
  · intro given
    obtain ⟨rfl, inside⟩ := given
    apply findSome?_eq_some
    · exact ⟨(.output, _), mem_children.mpr ⟨inside, rfl⟩, rfl⟩
    · intro entry child c same
      obtain ⟨label, x⟩ := entry
      obtain ⟨_, rfl⟩ := mem_children.mp child
      cases label with
      | output => exact (Option.some.inj same).symm
      | _ => simp at same

theorem param?_eq_some_iff {i : Nat} : s.param? function i = some w ↔
    ∃ index : UInt64, index.toNat = i ∧ w = function.extend (.input index) ∧ w ∈ s.nodes.keys := by
  constructor
  · intro found
    obtain ⟨⟨label, x⟩, child, same⟩ := List.exists_of_findSome?_eq_some found
    obtain ⟨inside, rfl⟩ := mem_children.mp child
    cases label with
    | input index =>
      obtain ⟨here, rfl⟩ : index.toNat = i ∧ _ = w := by simpa using same
      exact ⟨index, here, rfl, inside⟩
    | _ => simp at same
  · intro given
    obtain ⟨index, rfl, rfl, inside⟩ := given
    apply findSome?_eq_some
    · exact ⟨(.input index, _), mem_children.mpr ⟨inside, rfl⟩, by simp⟩
    · intro entry child c same
      obtain ⟨label, x⟩ := entry
      obtain ⟨_, rfl⟩ := mem_children.mp child
      cases label with
      | input other =>
        obtain ⟨equal, rfl⟩ : other.toNat = index.toNat ∧ _ = c := by simpa using same
        rw [UInt64.toNat_inj.mp equal]
      | _ => simp at same

private theorem push_signature_structs (narrow : s.Narrow function)
    (lays : ∀ v size fields, s.Lays v size fields → good size fields) (target : Target)
    (arena : Arena) (structs : arena.Structs good) :
    ((s.signature function).push target arena).1.Structs good := by
  have result := pushOption_structs narrow lays target (s.result? function)
    (fun v found => (result?_eq_some_iff.mp found).2) arena structs
  have nodes (v : TypeVar)
      (inside : some v ∈ (List.range (s.paramCount function)).map (s.param? function)) :
      v ∈ s.nodes.keys := by
    obtain ⟨i, _, found⟩ := List.mem_map.mp inside
    obtain ⟨_, _, _, node⟩ := param?_eq_some_iff.mp found
    exact node
  have params := pushParams_structs narrow lays target _ nodes _ result
  rw [List.map_map] at params
  exact params.push (by simp)

end Sketch

namespace Signature
variable (target : Target) (arena : Arena)

private theorem pushOption_isSome (shape : Option Shape) :
    (pushOption target arena shape).2.isSome = shape.isSome := by
  cases shape <;> rfl

private theorem pushParams_isSome (params : List (Option Shape)) :
    (pushParams target arena params).2.map Option.isSome = params.map Option.isSome := by
  induction params generalizing arena with
  | nil => rfl
  | cons param rest ih =>
    rw [List.map_cons, ← pushOption_isSome target arena, ← ih]
    rfl

private theorem push_isSome (signature : Signature) : ∃ ret params,
    (signature.push target arena).1.get? (signature.push target arena).2 =
      some (.function ret params) ∧
    ret.isSome = signature.ret.isSome ∧
    params.map Option.isSome = signature.params.map Option.isSome :=
  ⟨_, _, Arena.push_self, pushOption_isSome target arena signature.ret,
    pushParams_isSome target _ signature.params⟩

end Signature

namespace Sketch
variable {s : Sketch} {function : TypeVar}

theorem isSome_param?_iff {index : UInt64} : (s.param? function index.toNat).isSome ↔
    s.nodes.contains (function.extend (.input index)) := by
  rw [Option.isSome_iff_exists]
  constructor
  · intro given
    obtain ⟨_, found⟩ := given
    obtain ⟨other, same, rfl, inside⟩ := param?_eq_some_iff.mp found
    obtain rfl := UInt64.toNat_inj.mp same
    exact mem_nodes_iff.mp inside
  · intro there
    exact ⟨_, param?_eq_some_iff.mpr ⟨index, rfl, rfl, mem_nodes_iff.mpr there⟩⟩

private theorem fits_of_isSome (narrow : s.Narrow function) {ret : Option Handle}
    {params : List (Option Handle)}
    (result : ret.isSome = (s.signature function).ret.isSome)
    (arguments : params.map Option.isSome = (s.signature function).params.map Option.isSome) :
    s.Fits function ret params := by
  have counted {n : Nat} := (s.counts_paramCount function).lt_iff (k := n) narrow.arguments
  have listed : params.map Option.isSome =
      (List.range (s.paramCount function)).map fun i => (s.param? function i).isSome := by
    rw [arguments, signature, List.map_map]
    simp [Function.comp_def]
  refine ⟨?_, fun index => ?_, fun n => ?_⟩
  · rw [result, signature, Option.isSome_map, Option.isSome_iff_exists]
    simp [result?_eq_some_iff, mem_nodes_iff]
  · have there : params[index.toNat]?.join.isSome ↔
        (params.map Option.isSome)[index.toNat]? = some true := by
      rw [List.getElem?_map]
      cases params[index.toNat]? <;> simp
    rw [there, listed, List.getElem?_map]
    by_cases bound : index.toNat < s.paramCount function
    · rw [List.getElem?_range bound, Option.map_some, Option.some_inj]
      exact isSome_param?_iff
    · rw [List.getElem?_eq_none (by simpa using bound)]
      refine iff_of_false (by simp) fun there => bound ?_
      exact counted.mpr ⟨index, Nat.le_refl _, there⟩
  · have length := congrArg List.length listed
    rw [List.length_map, List.length_map, List.length_range] at length
    rw [length, counted]

end Sketch

/-- The node at a handle is a function with the parts that the sketch of a variable has. -/
def Arena.FitsFunction (arena : Arena) (sketches : Sketches) (v : TypeVar) (h : Handle) : Prop :=
  ∃ s ret params, sketches.get? v = some s ∧ arena.get? h = some (.function ret params) ∧
    s.Fits v ret params

/-- Types read off sketches: nodes refer to earlier ones, structures are laid out for what nodes of
the sketches are dereferenced for, and each function has a type of its own. -/
structure Inferred.ReadOff (inferred : Inferred) (sketches : Sketches) : Prop where
  backward : ∀ h node, inferred.arena.get? h = some node → ∀ r, some r ∈ node.refs → r < h
  plain : ∀ h name members, inferred.arena.get? h ≠ some (.union name members)
  laid : inferred.arena.Structs fun size fields => ∃ root s v, root.isBase ∧
    sketches.get? root = some s ∧ s.Lays v size fields
  roots : ∀ v, inferred.roots.contains v ↔ v.isBase ∧ sketches.contains v
  functions : ∀ v h, inferred.roots.get? v = some h → inferred.arena.FitsFunction sketches v h

namespace Sketches
variable {sketches : Sketches} {target : Target}

theorem mem_signatures {entry : TypeVar × Signature} : entry ∈ sketches.signatures ↔
    entry.1.isBase ∧ ∃ s, sketches.get? entry.1 = some s ∧ entry.2 = s.signature entry.1 := by
  obtain ⟨v, signature⟩ := entry
  simp only [signatures, List.mem_map, List.mem_filter, Prod.exists, Prod.mk.injEq,
    OrdMap.get?_eq_some_iff]
  constructor
  · intro given
    obtain ⟨root, s, ⟨listed, base⟩, rfl, rfl⟩ := given
    exact ⟨base, s, listed, rfl⟩
  · intro given
    obtain ⟨base, s, listed, rfl⟩ := given
    exact ⟨v, s, ⟨listed, base⟩, rfl, rfl⟩

private theorem infer_structs {good : Nat → List Field → Prop}
    (each : ∀ entry ∈ sketches.signatures, ∀ arena : Arena, arena.Structs good →
      (entry.2.push target arena).1.Structs good) :
    (sketches.infer target).arena.Structs good := by
  refine List.foldlRecOn (motive := fun inferred : Inferred => inferred.arena.Structs good)
    sketches.signatures _ Arena.structs_empty ?_
  intro inferred structs entry listed
  exact each entry listed inferred.arena structs

private theorem fitsFunction_mono (v : TypeVar) (a b : Arena) (h : Handle) (extended : a.Extends b)
    (fits : a.FitsFunction sketches v h) : b.FitsFunction sketches v h := by
  obtain ⟨s, ret, params, known, found, fits⟩ := fits
  exact ⟨s, ret, params, known, extended _ _ found, fits⟩

def Narrow (sketches : Sketches) : Prop :=
  ∀ v s, v.isBase → sketches.get? v = some s → s.Narrow v

private theorem fitsFunction_push (narrow : sketches.Narrow) (entry : TypeVar × Signature)
    (listed : entry ∈ sketches.signatures)
    (arena : Arena) : (entry.2.push target arena).1.FitsFunction sketches entry.1
      (entry.2.push target arena).2 := by
  obtain ⟨base, s, known, same⟩ := mem_signatures.mp listed
  obtain ⟨ret, params, found, result, arguments⟩ := entry.2.push_isSome target arena
  rw [same] at result arguments
  exact ⟨s, ret, params, known, found,
    Sketch.fits_of_isSome (narrow entry.1 s base known) result arguments⟩

theorem exists_mem_signatures_iff {v : TypeVar} :
    (∃ entry ∈ sketches.signatures, entry.1 = v) ↔ v.isBase ∧ sketches.contains v := by
  rw [OrdMap.contains_iff]
  constructor
  · intro given
    obtain ⟨entry, listed, rfl⟩ := given
    obtain ⟨base, s, known, _⟩ := mem_signatures.mp listed
    exact ⟨base, s, known⟩
  · intro given
    obtain ⟨base, s, known⟩ := given
    exact ⟨(v, s.signature v), mem_signatures.mpr ⟨base, s, known, rfl⟩, rfl⟩

/-- Whatever is counted, what is read off sketches can be recorded in every module. -/
theorem completes_recordInferred_infer (sketches : Sketches) (target : Target) :
    Completes (Recorder.recordInferred (sketches.infer target)) := by
  obtain ⟨grounded, functions, -⟩ := @infer_roots (fun _ _ _ => True) sketches target
    (fun _ _ _ _ _ _ => trivial) fun _ _ _ => trivial
  exact Recorder.completes_recordInferred grounded fun v h root => (functions v h root).1

/-- Whatever the sketches are, and whatever is sealed, types of all sizes that can be counted are read
off them in a form that is recorded without failure in every module. -/
theorem infer_readOff (sketches : Sketches) (target : Target) (narrow : sketches.Narrow) :
    (sketches.infer target).ReadOff sketches ∧
      Completes (Recorder.recordInferred (sketches.infer target)) := by
  obtain ⟨grounded, functions, keys⟩ :=
    @infer_roots _ sketches target fitsFunction_mono (fitsFunction_push narrow)
  have readOff : (sketches.infer target).ReadOff sketches := by
    refine ⟨?_, ?_, ?_, ?_, ?_⟩
    · exact fun h node found => (grounded h node found).2.1
    · exact fun h name members found => (grounded h _ found).1 name members rfl
    · apply infer_structs
      intro entry listed arena structs
      obtain ⟨base, s, known, same⟩ := mem_signatures.mp listed
      rw [same]
      exact Sketch.push_signature_structs (narrow entry.1 s base known)
        (fun v size fields lays => ⟨_, s, v, base, known, lays⟩) target arena structs
    · exact fun v => (keys v).trans exists_mem_signatures_iff
    · exact fun v h root => (functions v h root).2
  exact ⟨readOff, completes_recordInferred_infer sketches target⟩

/-- A function that reads a number and an address through its second argument. -/
def reader : Sketches :=
  let nodes := OrdMap.ofList ([[.output], [.input 1], [.input 1, .load],
    [.input 1, .load, .deref 4 0], [.input 1, .load, .deref 8 8]].map fun path =>
      ((⟨"f", path⟩ : TypeVar), (⟨Ground.int.toVar, Ground.top.toVar⟩ : Bounds)))
  OrdMap.ofList [(⟨"f", []⟩, ⟨⟨"f", []⟩, nodes⟩)]

theorem infer_readOff_reader : reader.Narrow ∧ (reader.infer ⟨∅, 8, 8⟩).ReadOff reader ∧
    Completes (Recorder.recordInferred (reader.infer ⟨∅, 8, 8⟩)) := by
  have narrow : reader.Narrow := by
    intro v s _ known
    have all : ∀ entry ∈ reader.entries, ∀ w ∈ entry.2.nodes.keys, ∀ label ∈ w.path,
        label.Narrow := by decide +kernel
    exact Sketch.narrow_of_labels (all (v, s) ((OrdMap.get?_eq_some_iff _ _ _).mp known))
  exact ⟨narrow, infer_readOff reader ⟨∅, 8, 8⟩ narrow⟩

end Sketches
end TypeRecovery
