import Mathlib.Algebra.Group.Nat.Defs
import TypeRecovery.Proofs.Prototype.Walks

/-! Types that constraints describe in full. Their walks all end, each at a variable of its own,
and what the walks yield where they end is enough to draw the type again. -/
namespace TypeRecovery
open Relation

/-- The scalars that the lattice has atoms for. -/
inductive TypeNode.Scalar : TypeNode → Prop where
  | void : Scalar .void
  | bool : Scalar .bool
  | char {size : Nat} (width : size ∈ [1, 2, 4]) : Scalar (.char size)
  | int {size : Nat} (signed : Bool) (width : size ∈ [1, 2, 4, 8, 16]) : Scalar (.int size signed)
  | float {size : Nat} (width : size ∈ [4, 8, 10, 16]) : Scalar (.float size)

theorem TypeNode.Scalar.exists_isNamed {node : TypeNode} (scalar : node.Scalar) :
    ∃ name, node.IsNamed name := by
  simp only [isNamed_iff]
  cases scalar with
  | char width =>
    unfold atom?
    split <;> simp_all
  | void | bool | int | float => exact ⟨_, rfl⟩

namespace TypeTable

/-- A pointer to nothing, or to something without parts. -/
inductive Whole (types : TypeTable) (id : NodeId) : Prop where
  | bare (found : types.get? id = some (.pointer none))
  | hollow {target : NodeId} {node : TypeNode}
    (found : types.get? id = some (.pointer (some target)))
    (present : types.get? target = some node) (hollow : node.parts target = [])

theorem Whole.pointer {types : TypeTable} {id : NodeId} (whole : types.Whole id) :
    ∃ pointee, types.get? id = some (.pointer pointee) := by
  cases whole with
  | bare found => exact ⟨_, found⟩
  | hollow found => exact ⟨_, found⟩

theorem Whole.present {types : TypeTable} {id : NodeId} (whole : types.Whole id) :
    ∃ node, types.get? id = some node := by
  obtain ⟨_, found⟩ := whole.pointer
  exact ⟨_, found⟩

theorem not_whole {types : TypeTable} {id : NodeId} {node : TypeNode}
    (found : types.get? id = some node) (other : ∀ pointee, node ≠ .pointer pointee) :
    ¬ types.Whole id := by
  intro whole
  obtain ⟨pointee, found'⟩ := whole.pointer
  exact other pointee (Option.some.inj (found.symm.trans found'))

/-- Scalars, and pointers that do not lead back to themselves. What a pointer leads to is again of
this kind, or a structure of such fields that is no longer than they need. -/
inductive Representable (types : TypeTable) (pointerSize : Nat) : NodeId → Prop where
  | scalar {id : NodeId} {node : TypeNode} (found : types.get? id = some node)
    (scalar : node.Scalar) : Representable types pointerSize id
  | whole {id : NodeId} (whole : types.Whole id) : Representable types pointerSize id
  | pointer {id target : NodeId} (found : types.get? id = some (.pointer (some target)))
    (solid : types.get? target ≠ some .void) (inner : Representable types pointerSize target) :
    Representable types pointerSize id
  | record {id target : NodeId} {size : Nat} {fields : List (Nat × NodeId)}
    (found : types.get? id = some (.pointer (some target)))
    (present : types.get? target = some (.struct size fields))
    (increasing : fields.Pairwise fun a b => a.1 < b.1)
    (near : ∀ field ∈ fields, field.1 < 2 ^ 63)
    (spread : 2 ≤ fields.length ∨ ∃ field, fields = [field] ∧ field.1 ≠ 0)
    (solid : ∀ field ∈ fields, types.get? field.2 ≠ some .void)
    (inner : ∀ field ∈ fields, Representable types pointerSize field.2)
    (bounded : ∀ field ∈ fields, ∀ n, types.SizeIs pointerSize field.2 n → field.1 + n ≤ size)
    (tight : ∃ field ∈ fields, ∃ n, types.SizeIs pointerSize field.2 n ∧ field.1 + n = size) :
    Representable types pointerSize id

/-- A pointer with parts that their offsets tell apart. -/
structure Opened (types : TypeTable) (id target : NodeId) (node : TypeNode) : Prop where
  found : types.get? id = some (.pointer (some target))
  present : types.get? target = some node
  solid : node.parts target ≠ []
  increasing : (node.parts target).Pairwise fun a b => a.1 < b.1
  near : ∀ part ∈ node.parts target, part.1 < 2 ^ 63
  solids : ∀ part ∈ node.parts target, types.get? part.2 ≠ some .void

variable {types : TypeTable} {pointerSize : Nat} {id : NodeId}

theorem Representable.present (representable : types.Representable pointerSize id) :
    ∃ node, types.get? id = some node ∧ (node.Scalar ∨ ∃ pointee, node = .pointer pointee) := by
  cases representable with
  | scalar found scalar => exact ⟨_, found, .inl scalar⟩
  | whole whole =>
    obtain ⟨found⟩ | ⟨found, _, _⟩ := whole
    · exact ⟨_, found, .inr ⟨_, rfl⟩⟩
    · exact ⟨_, found, .inr ⟨_, rfl⟩⟩
  | pointer found => exact ⟨_, found, .inr ⟨_, rfl⟩⟩
  | record found => exact ⟨_, found, .inr ⟨_, rfl⟩⟩

theorem Representable.scalar_of_isNamed {node : TypeNode} {name : String}
    (representable : types.Representable pointerSize id) (found : types.get? id = some node)
    (named : node.IsNamed name) : node.Scalar := by
  obtain ⟨other, found', scalar | ⟨pointee, pointer⟩⟩ := representable.present
  · rw [found] at found'
    exact Option.some.inj found' ▸ scalar
  · rw [found, pointer] at found'
    obtain rfl := Option.some.inj found'
    cases named

private theorem Representable.parts_eq (representable : types.Representable pointerSize id)
    (solid : types.get? id ≠ some .void) :
    ∃ node, types.get? id = some node ∧ node.parts id = [(0, id)] := by
  obtain ⟨node, found, scalar | ⟨pointee, rfl⟩⟩ := representable.present
  · cases scalar with
    | void => exact absurd found solid
    | bool | char | int | float => exact ⟨_, found, rfl⟩
  · exact ⟨_, found, rfl⟩

theorem Representable.opened_of_pointer {target : NodeId}
    (found : types.get? id = some (.pointer (some target)))
    (solid : types.get? target ≠ some .void) (inner : types.Representable pointerSize target) :
    ∃ node, types.Opened id target node ∧ node.parts target = [(0, target)] := by
  obtain ⟨node, present, parts⟩ := inner.parts_eq solid
  refine ⟨node, ⟨found, present, ?_, ?_, ?_, ?_⟩, parts⟩ <;> rw [parts]
  · exact List.cons_ne_nil _ _
  · exact List.pairwise_singleton _ _
  · simp
  · simpa using solid

/-- Induction that sees the fields of a structure and the target of a pointer alike. -/
theorem Representable.byParts {motive : NodeId → Prop}
    (representable : types.Representable pointerSize id)
    (scalar : ∀ id node, types.get? id = some node → node.Scalar → motive id)
    (whole : ∀ id, types.Whole id → motive id)
    (opened : ∀ id target node, types.Opened id target node →
      (∀ part ∈ node.parts target, types.Representable pointerSize part.2 ∧ motive part.2) →
      motive id) : motive id := by
  induction representable with
  | scalar found simple => exact scalar _ _ found simple
  | whole sealing => exact whole _ sealing
  | @pointer id target found solid inner ih =>
    obtain ⟨node, opens, parts⟩ := Representable.opened_of_pointer found solid inner
    refine opened id target node opens ?_
    simpa [parts] using ⟨inner, ih⟩
  | @record id target size fields found present increasing near spread solid inner bounded tight ih =>
    refine opened id target (.struct size fields)
      ⟨found, present, ?_, increasing, near, solid⟩ fun part inside =>
        ⟨inner part inside, ih part inside⟩
    obtain ⟨field, inside, _⟩ := tight
    exact List.ne_nil_of_mem inside

theorem Representable.sized (representable : types.Representable pointerSize id)
    (narrow : pointerSize ≤ 16) (solid : types.get? id ≠ some .void) :
    ∃ n ≤ 16, types.SizeIs pointerSize id n := by
  obtain ⟨node, found, scalar | ⟨pointee, rfl⟩⟩ := representable.present
  · cases scalar with
    | void => exact absurd found solid
    | bool => exact ⟨1, by decide, .bool found⟩
    | char width =>
      refine ⟨_, ?_, .char found⟩
      revert width
      simp only [List.mem_cons, List.not_mem_nil, or_false]
      omega
    | int signed width =>
      refine ⟨_, ?_, .int found⟩
      revert width
      simp only [List.mem_cons, List.not_mem_nil, or_false]
      omega
    | float width =>
      refine ⟨_, ?_, .float found⟩
      revert width
      simp only [List.mem_cons, List.not_mem_nil, or_false]
      omega
  · exact ⟨pointerSize, narrow, .pointer found⟩

def PartOf (types : TypeTable) (id part : NodeId) : Prop :=
  ∃ target node offset, types.get? id = some (.pointer (some target)) ∧
    types.get? target = some node ∧ (offset, part) ∈ node.parts target

theorem Opened.not_whole {target : NodeId} {node : TypeNode}
    (opened : types.Opened id target node) :
    ¬ types.Whole id := by
  intro whole
  cases whole with
  | bare found => simp [opened.found] at found
  | hollow found present hollow =>
    obtain rfl : target = _ := by simpa using opened.found.symm.trans found
    obtain rfl : node = _ := Option.some.inj (opened.present.symm.trans present)
    exact opened.solid hollow

theorem Opened.partOf {target part : NodeId} {node : TypeNode}
    (opened : types.Opened id target node)
    (step : types.PartOf id part) : ∃ offset, (offset, part) ∈ node.parts target := by
  obtain ⟨target', node', offset, found, present, inside⟩ := step
  obtain rfl : target = target' := by simpa using opened.found.symm.trans found
  obtain rfl : node = node' := Option.some.inj (opened.present.symm.trans present)
  exact ⟨offset, inside⟩

theorem Whole.not_partOf (whole : types.Whole id) (part : NodeId) : ¬ types.PartOf id part := by
  intro given
  obtain ⟨target, node, offset, found, present, inside⟩ := given
  obtain bare | ⟨found', present', hollow⟩ := whole
  · simp [bare] at found
  · obtain rfl : target = _ := by simpa using found.symm.trans found'
    obtain rfl : node = _ := Option.some.inj (present.symm.trans present')
    simp [hollow] at inside

theorem Representable.acyclic (representable : types.Representable pointerSize id) :
    ¬ TransGen types.PartOf id id := by
  refine representable.byParts (motive := fun id => ¬ TransGen types.PartOf id id) ?_ ?_ ?_
  · intro id node found scalar cycle
    obtain ⟨_, ⟨_, _, _, pointer, _⟩, _⟩ := TransGen.head'_iff.mp cycle
    obtain rfl : node = _ := Option.some.inj (found.symm.trans pointer)
    cases scalar
  · intro id whole cycle
    obtain ⟨_, step, _⟩ := TransGen.head'_iff.mp cycle
    exact whole.not_partOf _ step
  · intro id target node opened inner cycle
    obtain ⟨part, step, rest⟩ := TransGen.head'_iff.mp cycle
    obtain ⟨offset, inside⟩ := opened.partOf step
    -- The same cycle, started one step later, goes through a part.
    exact (inner _ inside).2 (TransGen.tail' rest step)

/-- What is said of a variable of a type that no walk goes on from. -/
inductive Tip (types : TypeTable) : NodeId → TypeVar → Prop where
  | scalar {id : NodeId} {node : TypeNode} {name : String} (found : types.get? id = some node)
    (named : node.IsNamed name) : Tip types id ⟨name, []⟩
  | whole {id : NodeId} (whole : types.Whole id) : Tip types id (Reading.sealedAtom id)

/-- From a variable of a type, a walk goes on to a variable of another type and ends there. -/
inductive Leaf (types : TypeTable) (pointerSize : Nat) (side : Side) :
    TypeVar → NodeId → TypeVar → NodeId → Prop where
  | here {v : TypeVar} {id : NodeId} {atom : TypeVar} (tip : types.Tip id atom) :
    Leaf types pointerSize side v id v id
  | part {v w : TypeVar} {id target last : NodeId} {node : TypeNode} {part : Nat × NodeId}
    {n : Nat} (found : types.get? id = some (.pointer (some target)))
    (present : types.get? target = some node) (inside : part ∈ node.parts target)
    (sized : types.SizeIs pointerSize part.2 n)
    (rest : Leaf types pointerSize side (side.reach v part.1 n) part.2 w last) :
    Leaf types pointerSize side v id w last

variable {side : Side} {v w : TypeVar} {last : NodeId}

theorem reach_path (side : Side) (v : TypeVar) (offset n : Nat) :
    (side.reach v offset n).path =
      v.path ++ [side.access, .deref (UInt64.ofNat n) (Int64.ofNat offset)] := by
  simp [Side.reach, TypeVar.extend]

theorem Leaf.extends (leaf : types.Leaf pointerSize side v id w last) :
    w.base = v.base ∧ v.path <+: w.path := by
  induction leaf with
  | here => exact ⟨rfl, List.prefix_rfl⟩
  | part _ _ _ _ _ ih =>
    refine ⟨ih.1, List.IsPrefix.trans ?_ ih.2⟩
    rw [reach_path]
    exact List.prefix_append _ _

theorem Leaf.tip (leaf : types.Leaf pointerSize side v id w last) :
    ∃ atom, types.Tip last atom := by
  induction leaf with
  | here tip => exact ⟨_, tip⟩
  | part _ _ _ _ _ ih => exact ih

theorem Representable.exists_leaf (representable : types.Representable pointerSize id)
    (narrow : pointerSize ≤ 16) (side : Side) (v : TypeVar) :
    ∃ w last, types.Leaf pointerSize side v id w last := by
  refine representable.byParts
    (motive := fun id => ∀ v, ∃ w last, types.Leaf pointerSize side v id w last) ?_ ?_ ?_ v
  · intro id node found scalar v
    obtain ⟨name, named⟩ := scalar.exists_isNamed
    exact ⟨v, id, .here (.scalar found named)⟩
  · intro id whole v
    exact ⟨v, id, .here (.whole whole)⟩
  · intro id target node opened inner v
    obtain ⟨part, inside⟩ := List.exists_mem_of_ne_nil _ opened.solid
    obtain ⟨representable, goes⟩ := inner part inside
    obtain ⟨n, _, sized⟩ := representable.sized narrow (opened.solids part inside)
    obtain ⟨w, last, leaf⟩ := goes (side.reach v part.1 n)
    exact ⟨w, last, .part opened.found opened.present inside sized leaf⟩

theorem Tip.of_opened {target : NodeId} {node : TypeNode} {atom : TypeVar}
    (opened : types.Opened id target node) : ¬ types.Tip id atom := by
  intro given
  rcases given with ⟨found, named⟩ | ⟨bare | ⟨found, present, hollow⟩⟩
  · obtain rfl : _ = TypeNode.pointer _ := Option.some.inj (found.symm.trans opened.found)
    cases named
  · simp [opened.found] at bare
  · obtain rfl : target = _ := by simpa using opened.found.symm.trans found
    obtain rfl : node = _ := Option.some.inj (opened.present.symm.trans present)
    exact opened.solid hollow

theorem Tip.unique {atom atom' : TypeVar} (first : types.Tip id atom)
    (second : types.Tip id atom') :
    atom = atom' := by
  have apart {node : TypeNode} {name : String} (found : types.get? id = some node)
      (named : node.IsNamed name) : ¬ types.Whole id := by
    intro given
    rcases given with bare | ⟨pointer, _, _⟩
    · obtain rfl := Option.some.inj (found.symm.trans bare)
      cases named
    · obtain rfl := Option.some.inj (found.symm.trans pointer)
      cases named
  cases first with
  | scalar found named =>
    cases second with
    | scalar found' named' =>
      obtain rfl := Option.some.inj (found.symm.trans found')
      rw [TypeNode.isNamed_iff] at named named'
      rw [Option.some.inj (named.symm.trans named')]
    | whole whole => exact absurd whole (apart found named)
  | whole whole =>
    cases second with
    | scalar found named => exact absurd whole (apart found named)
    | whole => rfl

theorem Leaf.of_opened {target : NodeId} {node : TypeNode} (opened : types.Opened id target node)
    (leaf : types.Leaf pointerSize side v id w last) :
    ∃ part ∈ node.parts target, ∃ n, types.SizeIs pointerSize part.2 n ∧
      types.Leaf pointerSize side (side.reach v part.1 n) part.2 w last := by
  cases leaf with
  | here tip => exact absurd tip (Tip.of_opened opened)
  | part found present inside sized rest =>
    obtain rfl : target = _ := by simpa using opened.found.symm.trans found
    obtain rfl : node = _ := Option.some.inj (opened.present.symm.trans present)
    exact ⟨_, inside, _, sized, rest⟩

theorem offset_injective {a b : Nat} (left : a < 2 ^ 63) (right : b < 2 ^ 63)
    (same : Int64.ofNat a = Int64.ofNat b) : a = b := by
  have value (n : Nat) (near : n < 2 ^ 63) : (Int64.ofNat n).toInt = n := by
    rw [Int64.toInt_ofNat_of_lt]
    omega
  have equal := congrArg Int64.toInt same
  rw [value a left, value b right] at equal
  omega

theorem reach_injective {a b m n : Nat} {path : List Label}
    (first : (side.reach v a m).path <+: path) (second : (side.reach v b n).path <+: path) :
    UInt64.ofNat m = UInt64.ofNat n ∧ Int64.ofNat a = Int64.ofNat b := by
  have size : (side.reach v a m).path.length = (side.reach v b n).path.length := by
    simp [reach_path]
  have equal := (List.prefix_of_prefix_length_le first second (Nat.le_of_eq size)).eq_of_length size
  simpa [reach_path] using equal

theorem Opened.part_unique {target : NodeId} {node : TypeNode} {part other : Nat × NodeId}
    (opened : types.Opened id target node) (inside : part ∈ node.parts target)
    (inside' : other ∈ node.parts target) (same : Int64.ofNat part.1 = Int64.ofNat other.1) :
    part = other := by
  have distinct : ((node.parts target).map Prod.fst).Nodup := by
    rw [List.Nodup, List.pairwise_map]
    exact opened.increasing.imp fun less => Nat.ne_of_lt less
  apply List.inj_on_of_nodup_map distinct inside inside'
  exact offset_injective (opened.near part inside) (opened.near other inside') same

theorem Leaf.of_not_partOf (closed : ∀ part, ¬ types.PartOf id part)
    (leaf : types.Leaf pointerSize side v id w last) : w = v ∧ last = id := by
  cases leaf with
  | here => exact ⟨rfl, rfl⟩
  | part found present inside => exact absurd ⟨_, _, _, found, present, inside⟩ (closed _)

theorem not_partOf_of_scalar {node : TypeNode} (found : types.get? id = some node)
    (scalar : node.Scalar) (part : NodeId) : ¬ types.PartOf id part := by
  intro given
  obtain ⟨_, _, _, pointer, _⟩ := given
  obtain rfl : node = _ := Option.some.inj (found.symm.trans pointer)
  cases scalar

theorem Representable.of_leaf (representable : types.Representable pointerSize id)
    (leaf : types.Leaf pointerSize side v id w last) :
    types.Representable pointerSize last := by
  refine representable.byParts (motive := fun id => types.Representable pointerSize id →
    ∀ v, types.Leaf pointerSize side v id w last → types.Representable pointerSize last)
    ?_ ?_ ?_ representable v leaf
  · intro id node found scalar representable v leaf
    obtain ⟨_, rfl⟩ := leaf.of_not_partOf (not_partOf_of_scalar found scalar)
    exact representable
  · intro id whole representable v leaf
    obtain ⟨_, rfl⟩ := leaf.of_not_partOf whole.not_partOf
    exact representable
  · intro id target node opened inner _ v leaf
    obtain ⟨part, inside, n, _, leaf⟩ := leaf.of_opened opened
    obtain ⟨representable, goes⟩ := inner part inside
    exact goes representable _ leaf

theorem Representable.leaf_unique {last' : NodeId}
    (representable : types.Representable pointerSize id)
    (first : types.Leaf pointerSize side v id w last)
    (second : types.Leaf pointerSize side v id w last') : last = last' := by
  refine representable.byParts (motive := fun id => ∀ v,
    types.Leaf pointerSize side v id w last → types.Leaf pointerSize side v id w last' →
      last = last') ?_ ?_ ?_ v first second
  · intro id node found scalar v first second
    have closed := not_partOf_of_scalar found scalar
    rw [(first.of_not_partOf closed).2, (second.of_not_partOf closed).2]
  · intro id whole v first second
    rw [(first.of_not_partOf whole.not_partOf).2, (second.of_not_partOf whole.not_partOf).2]
  · intro id target node opened inner v first second
    obtain ⟨part, inside, m, sized, first⟩ := first.of_opened opened
    obtain ⟨other, inside', n, sized', second⟩ := second.of_opened opened
    obtain ⟨-, offsets⟩ := reach_injective first.extends.2 second.extends.2
    obtain rfl := opened.part_unique inside inside' offsets
    obtain rfl := sized.unique sized'
    exact (inner part inside).2 _ first second

end TypeTable

namespace CodeModule
open TypeTable Reader
variable {m : CodeModule} {words : WordSizes} {side : Side} {place : Waypoint}

theorem sizeIs_iff (supported : m.isa.sizes? = some words) {id : NodeId} {n : Nat} :
    m.SizeIs id n ↔ m.types.SizeIs words.pointer id n := by
  constructor
  · intro given
    obtain ⟨words', supported', sized⟩ := given
    obtain rfl := Option.some.inj (supported.symm.trans supported')
    exact sized
  · exact fun sized => ⟨words, supported, sized⟩

private theorem leads_of_not_partOf {kind : Waypoint → Prop}
    (closed : ∀ part, ¬ m.types.PartOf place.type part) : m.Leads side place kind ↔ kind place := by
  rw [leads_iff]
  refine or_iff_left ?_
  intro given
  obtain ⟨_, ⟨opened, found, inside, _⟩, _⟩ := given
  exact closed _ ⟨_, _, _, opened.1, found, inside⟩

/-- Walks over types that do not lead back to themselves are never cut short, so they come to what
is at the ends of leaves. -/
theorem leads_iff_leaf {kind : Waypoint → Prop} {tells : TypeVar → NodeId → Prop}
    (supported : m.isa.sizes? = some words)
    (silent : ∀ {place target node}, m.types.Opened place.type target node →
      m.Opens place target → (∀ part ∈ node.parts target, ∃ n, m.SizeIs part.2 n) → ¬ kind place)
    (tips : ∀ {place atom}, m.types.Tip place.type atom → place.type ∉ place.trail →
      (kind place ↔ tells place.about place.type))
    (narrow : words.pointer ≤ 16)
    (representable : m.types.Representable words.pointer place.type)
    (outside : ∀ id ∈ place.trail, TransGen m.types.PartOf id place.type) :
    m.Leads side place kind ↔
      ∃ w last, m.types.Leaf words.pointer side place.about place.type w last ∧ tells w last := by
  have ends {place : Waypoint} {atom : TypeVar} (tip : m.types.Tip place.type atom)
      (closed : ∀ part, ¬ m.types.PartOf place.type part)
      (fresh : place.type ∉ place.trail) : m.Leads side place kind ↔
        ∃ w last, m.types.Leaf words.pointer side place.about place.type w last ∧ tells w last := by
    rw [leads_of_not_partOf closed, tips tip fresh]
    constructor
    · exact fun said => ⟨_, _, .here tip, said⟩
    · intro given
      obtain ⟨w, last, leaf, said⟩ := given
      obtain ⟨rfl, rfl⟩ := leaf.of_not_partOf closed
      exact said
  refine representable.byParts (motive := fun id => ∀ place : Waypoint, place.type = id →
    m.types.Representable words.pointer id →
    (∀ id ∈ place.trail, TransGen m.types.PartOf id place.type) →
    (m.Leads side place kind ↔
      ∃ w last, m.types.Leaf words.pointer side place.about place.type w last ∧ tells w last))
    ?_ ?_ ?_ place rfl representable outside
  · intro id node found scalar place same representable outside
    subst same
    obtain ⟨name, named⟩ := scalar.exists_isNamed
    exact ends (.scalar found named) (not_partOf_of_scalar found scalar)
      fun inside => representable.acyclic (outside _ inside)
  · intro id whole place same representable outside
    subst same
    exact ends (.whole whole) whole.not_partOf
      fun inside => representable.acyclic (outside _ inside)
  · intro id target node opened inner place same representable outside
    subst same
    have opens : m.Opens place target :=
      ⟨opened.found, fun inside => representable.acyclic (outside _ inside)⟩
    have sized (part : Nat × NodeId) (inside : part ∈ node.parts target) :
        ∃ n, m.SizeIs part.2 n := by
      obtain ⟨n, _, sized⟩ := (inner part inside).1.sized narrow (opened.solids part inside)
      exact ⟨n, (sizeIs_iff supported).mpr sized⟩
    rw [leads_of_opens m opens opened.present, or_iff_right (silent opened opens sized)]
    have deeper (part : Nat × NodeId) (inside : part ∈ node.parts target) :
        ∀ id ∈ place.type :: place.trail, TransGen m.types.PartOf id part.2 := by
      have step : m.types.PartOf place.type part.2 :=
        ⟨target, node, part.1, opened.found, opened.present, inside⟩
      intro id listed
      rcases List.mem_cons.mp listed with rfl | before
      · exact .single step
      · exact (outside id before).tail step
    constructor
    · intro given
      obtain ⟨part, inside, n, sized, leads⟩ := given
      obtain ⟨w, last, leaf, said⟩ := ((inner part inside).2 ⟨_, _, part.2⟩ rfl
        (inner part inside).1 (deeper part inside)).mp leads
      exact ⟨w, last, .part opened.found opened.present inside ((sizeIs_iff supported).mp sized)
        leaf, said⟩
    · intro given
      obtain ⟨w, last, leaf, said⟩ := given
      obtain ⟨part, inside, n, sized, leaf⟩ := leaf.of_opened opened
      exact ⟨part, inside, n, (sizeIs_iff supported).mpr sized, ((inner part inside).2
        ⟨_, _, part.2⟩ rfl (inner part inside).1 (deeper part inside)).mpr ⟨w, last, leaf, said⟩⟩

end CodeModule
end TypeRecovery
