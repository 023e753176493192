import TypeRecovery.Proofs.Solver.Annotated

/-! Shapes read off sketches. A sketch that has the variables on the way to the leaves of a type
has the shape of that type: what is dereferenced is found at its offset, and the depth to which
shapes are followed is enough. -/
namespace TypeRecovery

def TypeTable.width (types : TypeTable) (pointerSize : Nat) (id : NodeId) : Nat :=
  match types.sizeOf pointerSize id with
  | .ok n => n
  | .error _ => 0

private theorem TypeTable.SizeIs.width_eq {types : TypeTable} {pointerSize n : Nat} {id : NodeId}
    (sized : types.SizeIs pointerSize id n) : types.width pointerSize id = n := by
  rw [width, TypeTable.sizeOf_eq_ok_iff.mpr sized]

namespace Sketch
variable {s : Sketch} {v w : TypeVar} {label : Label}

theorem addition?_eq_some_iff {short long : List Label} :
    addition? short long = some label ↔ long = short ++ [label] := by
  fun_induction addition? short long with
  | case1 => simp [eq_comm]
  | case2 short b long ih => simp [ih]
  | case3 a short b long apart => simp [Ne.symm apart]
  | case4 short long first step =>
    refine iff_of_false (by simp) ?_
    intro same
    subst same
    cases short with
    | nil => exact first label rfl rfl
    | cons a short => exact step a short a (short ++ [label]) rfl rfl

theorem step?_eq_some_iff : step? v w = some label ↔ w = v.extend label := by
  obtain ⟨base, path⟩ := w
  simp only [step?, TypeVar.extend, TypeVar.mk.injEq]
  split
  next same => simp [addition?_eq_some_iff, same]
  next apart => simp [Ne.symm apart]

theorem mem_children : (label, w) ∈ s.children v ↔ w ∈ s.nodes.keys ∧ w = v.extend label := by
  simp only [children, List.mem_filterMap, Option.map_eq_some_iff, Prod.mk.injEq]
  constructor
  · intro given
    obtain ⟨x, inside, l, step, rfl, rfl⟩ := given
    exact ⟨inside, step?_eq_some_iff.mp step⟩
  · intro given
    obtain ⟨inside, step⟩ := given
    exact ⟨w, inside, label, step?_eq_some_iff.mpr step, rfl, rfl⟩

theorem mem_accesses {offset : Int} {size : Nat} : (offset, size, w) ∈ s.accesses v ↔
    ∃ access n o, (access = .load ∨ access = .store) ∧ v.extend access ∈ s.nodes.keys ∧
      w ∈ s.nodes.keys ∧ w = (v.extend access).extend (.deref n o) ∧
      offset = o.toInt ∧ size = n.toNat := by
  simp only [accesses, List.mem_flatMap, Prod.exists, mem_children]
  constructor
  · intro given
    obtain ⟨access, _, ⟨inside, rfl⟩, found⟩ := given
    cases access with
    | load | store =>
      obtain ⟨⟨target, x⟩, child, same⟩ := List.mem_filterMap.mp found
      obtain ⟨inside', rfl⟩ := mem_children.mp child
      cases target with
      | deref n o =>
        obtain ⟨rfl, rfl, rfl⟩ : o.toInt = offset ∧ n.toNat = size ∧ _ = w := by
          simpa using same
        exact ⟨_, n, o, by simp, inside, inside', rfl, rfl, rfl⟩
      | _ => simp at same
    | _ => simp at found
  · intro given
    obtain ⟨access, n, o, kind, inside, inside', rfl, rfl, rfl⟩ := given
    refine ⟨access, _, ⟨inside, rfl⟩, ?_⟩
    rcases kind with rfl | rfl
    all_goals
      refine List.mem_filterMap.mpr ⟨(.deref n o, _), mem_children.mpr ⟨inside', rfl⟩, rfl⟩

theorem derefs_get? {offset : Int} : (s.derefs v).get? offset =
    ((s.accesses v).find? fun access => access.1 == offset).map Prod.snd := by
  have each (accesses : List (Int × Nat × TypeVar)) (found : OrdMap Int (Nat × TypeVar)) :
      (accesses.foldl (fun found access =>
        if found.contains access.1 then found else found.insert access.1 access.2) found).get? offset =
      (found.get? offset).or
        ((accesses.find? fun access => access.1 == offset).map Prod.snd) := by
    induction accesses generalizing found with
    | nil => simp
    | cons access rest ih =>
      rw [List.foldl_cons, ih, List.find?_cons]
      by_cases here : access.1 = offset
      · cases before : found.get? offset with
        | some x => simp [here, OrdMap.contains, before]
        | none => simp [here, OrdMap.contains, before, OrdMap.get?_insert_self]
      · have skip : (access.1 == offset) = false := by simpa using here
        rw [skip]
        split
        · rfl
        · rw [OrdMap.get?_insert_of_ne _ _ (Ne.symm here)]
  rw [derefs, each]
  rfl

theorem derefs_get?_eq_some_iff {offset : Int} {found : Nat × TypeVar}
    (unique : ∀ a ∈ s.accesses v, ∀ b ∈ s.accesses v, a.1 = b.1 → a = b) :
    (s.derefs v).get? offset = some found ↔ (offset, found) ∈ s.accesses v := by
  rw [derefs_get?, Option.map_eq_some_iff]
  constructor
  · intro given
    obtain ⟨access, first, rfl⟩ := given
    have same : access.1 = offset := by simpa using List.find?_some first
    exact same ▸ List.mem_of_find?_eq_some first
  · intro inside
    cases first : (s.accesses v).find? fun access => access.1 == offset with
    | none => simpa using List.find?_eq_none.mp first _ inside
    | some access =>
      have same : access.1 = offset := by simpa using List.find?_some first
      exact ⟨access, rfl, by rw [unique access (List.mem_of_find?_eq_some first) _ inside same]⟩

/-- The number of nodes whose paths are not shorter than that of `v`. -/
def room (s : Sketch) (v : TypeVar) : Nat :=
  (s.nodes.keys.filter fun w => v.path.length ≤ w.path.length).length

theorem room_le_size (s : Sketch) (v : TypeVar) : s.room v ≤ s.nodes.size := by
  have all := List.length_filter_le (fun w => decide (v.path.length ≤ w.path.length)) s.nodes.keys
  rwa [OrdMap.keys, List.length_map] at all

theorem room_lt (node : v ∈ s.nodes.keys) (longer : v.path.length < w.path.length) :
    s.room w < s.room v := by
  have apart : v ∉ s.nodes.keys.filter fun x => w.path.length ≤ x.path.length := by
    simp [longer]
  have distinct := List.nodup_cons.mpr ⟨apart, (OrdMap.nodup_keys s.nodes).filter _⟩
  apply Nat.lt_of_succ_le
  apply distinct.length_le_of_subset
  intro x inside
  rcases List.mem_cons.mp inside with rfl | deeper
  · exact List.mem_filter.mpr ⟨node, decide_eq_true (Nat.le_refl _)⟩
  · simp only [List.mem_filter, decide_eq_true_eq] at deeper ⊢
    exact ⟨deeper.1, by omega⟩

theorem room_pos (node : v ∈ s.nodes.keys) : 0 < s.room v := by
  apply List.length_pos_of_mem
  exact List.mem_filter.mpr ⟨node, decide_eq_true (Nat.le_refl _)⟩

variable {types : TypeTable} {pointerSize : Nat} {side : Side} {id target : NodeId}
variable {node : TypeNode} {part : Nat × NodeId} {n : Nat}

/-- The part of a sketch from a variable on is that on the way to the leaves of its type. -/
structure Covers (s : Sketch) (types : TypeTable) (pointerSize : Nat) (side : Side) (v : TypeVar)
    (id : NodeId) : Prop where
  nodes : ∀ w : TypeVar, w.base = v.base → v.path <+: w.path → (w ∈ s.nodes.keys ↔
    ∃ x last, types.Leaf pointerSize side v id x last ∧ w.path <+: x.path)
  bounded : ∀ {w last atom}, types.Leaf pointerSize side v id w last → types.Tip last atom →
    s.boundsOf w = side.bounds atom

private theorem Covers.of_part (covers : s.Covers types pointerSize side v id)
    (opened : types.Opened id target node) (inside : part ∈ node.parts target)
    (sized : types.SizeIs pointerSize part.2 n) :
    s.Covers types pointerSize side (side.reach v part.1 n) part.2 where
  nodes w base under := by
    have above : v.path <+: w.path := by
      rw [TypeTable.reach_path] at under
      exact (List.prefix_append _ _).trans under
    rw [covers.nodes w base above]
    constructor
    · intro given
      obtain ⟨x, last, leaf, on⟩ := given
      obtain ⟨other, inside', k, sized', leaf⟩ := leaf.of_opened opened
      obtain ⟨-, offsets⟩ := TypeTable.reach_injective (under.trans on) leaf.extends.2
      obtain rfl := opened.part_unique inside inside' offsets
      obtain rfl := sized.unique sized'
      exact ⟨x, last, leaf, on⟩
    · intro given
      obtain ⟨x, last, leaf, on⟩ := given
      exact ⟨x, last, .part opened.found opened.present inside sized leaf, on⟩
  bounded leaf tip :=
    covers.bounded (.part opened.found opened.present inside sized leaf) tip

private theorem Covers.derefs_eq_empty (covers : s.Covers types pointerSize side v id)
    (closed : ∀ part, ¬ types.PartOf id part) : (s.derefs v).entries = [] := by
  have none : s.accesses v = [] := by
    rw [List.eq_nil_iff_forall_not_mem]
    intro access found
    obtain ⟨offset, size, w⟩ := access
    obtain ⟨access, n, o, _, inside, _⟩ := mem_accesses.mp found
    obtain ⟨x, last, leaf, on⟩ := (covers.nodes (v.extend access) rfl (List.prefix_append _ _)).mp inside
    obtain ⟨rfl, rfl⟩ := leaf.of_not_partOf closed
    have long := on.length_le
    simp only [TypeVar.extend, List.length_append, List.length_singleton] at long
    omega
  rw [derefs, none]
  rfl

theorem Covers.mem_accesses_iff (covers : s.Covers types pointerSize side v id)
    (opened : types.Opened id target node) (narrow : pointerSize ≤ 16)
    (inner : ∀ part ∈ node.parts target, types.Representable pointerSize part.2)
    {offset : Int} {size : Nat} {w : TypeVar} : (offset, size, w) ∈ s.accesses v ↔
      ∃ part ∈ node.parts target, types.SizeIs pointerSize part.2 size ∧ offset = part.1 ∧
        w = side.reach v part.1 size := by
  have value (o : Nat) (near : o < 2 ^ 63) : (Int64.ofNat o).toInt = o := by
    rw [Int64.toInt_ofNat_of_lt]
    omega
  have width {part : Nat × NodeId} {k : Nat} (inside : part ∈ node.parts target)
      (sized : types.SizeIs pointerSize part.2 k) : (UInt64.ofNat k).toNat = k := by
    obtain ⟨n, small, sized'⟩ := (inner part inside).sized narrow (opened.solids part inside)
    rw [sized.unique sized', UInt64.toNat_ofNat', Nat.mod_eq_of_lt (by omega)]
  rw [mem_accesses]
  constructor
  · intro given
    obtain ⟨access, n, o, _, _, inside, rfl, rfl, rfl⟩ := given
    have under : v.path <+: ((v.extend access).extend (.deref n o)).path := by
      simp [TypeVar.extend]
    obtain ⟨x, last, leaf, on⟩ := (covers.nodes ((v.extend access).extend (.deref n o)) rfl under).mp inside
    obtain ⟨part, listed, k, sized, leaf⟩ := leaf.of_opened opened
    -- both lie on the way to one leaf, two labels below the pointer
    have same : (v.extend access).extend (.deref n o) = side.reach v part.1 k := by
      have way := leaf.extends.2
      have size : ((v.extend access).extend (.deref n o)).path.length =
          (side.reach v part.1 k).path.length := by
        simp [TypeTable.reach_path, TypeVar.extend]
      have paths := (List.prefix_of_prefix_length_le on way (Nat.le_of_eq size)).eq_of_length size
      exact congrArg (TypeVar.mk v.base) paths
    obtain ⟨rfl, rfl, rfl⟩ : access = side.access ∧ n = UInt64.ofNat k ∧ o = Int64.ofNat part.1 := by
      simpa [TypeVar.extend, Side.reach] using same
    refine ⟨part, listed, ?_, value _ (opened.near part listed), ?_⟩
    · rw [width listed sized]
      exact sized
    · rw [width listed sized]
      rfl
  · intro given
    obtain ⟨part, listed, sized, rfl, rfl⟩ := given
    obtain ⟨x, last, leaf⟩ := (inner part listed).exists_leaf narrow side (side.reach v part.1 size)
    have whole : types.Leaf pointerSize side v id x last :=
      .part opened.found opened.present listed sized leaf
    have way := leaf.extends.2
    have first : (v.extend side.access).path <+: (side.reach v part.1 size).path :=
      List.prefix_append _ _
    refine ⟨side.access, UInt64.ofNat size, Int64.ofNat part.1, ?_, ?_, ?_, rfl, ?_, ?_⟩
    · cases side with
      | left => exact .inl rfl
      | right => exact .inr rfl
    · exact (covers.nodes (v.extend side.access) rfl (List.prefix_append _ _)).mpr
        ⟨x, last, whole, first.trans way⟩
    · refine (covers.nodes (side.reach v part.1 size) rfl ?_).mpr ⟨x, last, whole, way⟩
      rw [TypeTable.reach_path]
      exact List.prefix_append _ _
    · exact (value _ (opened.near part listed)).symm
    · exact (width listed sized).symm

private theorem Covers.derefs_eq (covers : s.Covers types pointerSize side v id)
    (opened : types.Opened id target node) (narrow : pointerSize ≤ 16)
    (inner : ∀ part ∈ node.parts target, types.Representable pointerSize part.2) :
    (s.derefs v).entries = (node.parts target).map fun part =>
      ((part.1 : Int), types.width pointerSize part.2,
        side.reach v part.1 (types.width pointerSize part.2)) := by
  let listed : List (Int × Nat × TypeVar) := (node.parts target).map fun part =>
    ((part.1 : Int), types.width pointerSize part.2,
      side.reach v part.1 (types.width pointerSize part.2))
  have increasing : listed.Pairwise fun a b => compare a.1 b.1 = .lt := by
    rw [List.pairwise_map]
    refine opened.increasing.imp fun less => ?_
    rw [Std.compare_eq_lt]
    exact Int.ofNat_lt.mpr less
  have members (access : Int × Nat × TypeVar) : access ∈ s.accesses v ↔ access ∈ listed := by
    obtain ⟨offset, size, w⟩ := access
    rw [covers.mem_accesses_iff opened narrow inner, List.mem_map]
    constructor
    · intro given
      obtain ⟨part, inside, sized, rfl, rfl⟩ := given
      exact ⟨part, inside, by rw [sized.width_eq]⟩
    · intro given
      obtain ⟨part, inside, same⟩ := given
      obtain ⟨n, _, sized⟩ := (inner part inside).sized narrow (opened.solids part inside)
      rw [sized.width_eq] at same
      obtain ⟨rfl, rfl, rfl⟩ : (part.1 : Int) = offset ∧ n = size ∧ side.reach v part.1 n = w := by
        simpa using same
      exact ⟨part, inside, sized, rfl, rfl⟩
  have unique : ∀ a ∈ s.accesses v, ∀ b ∈ s.accesses v, a.1 = b.1 → a = b := by
    have distinct := OrdMap.nodup_keys ⟨listed, increasing⟩
    intro a first b second
    exact List.inj_on_of_nodup_map distinct ((members a).mp first) ((members b).mp second)
  have same : s.derefs v = ⟨listed, increasing⟩ := by
    apply OrdMap.ext_get?
    intro offset
    apply Option.ext
    intro found
    rw [derefs_get?_eq_some_iff unique, OrdMap.get?_eq_some_iff]
    exact members (offset, found)
  rw [same]

end Sketch

/-- The shape is that of a type whose sealed pointers have their atoms. -/
inductive Depicts (types : TypeTable) (pointerSize : Nat) (sealedTypes : SealedTypes) :
    Shape → NodeId → Prop where
  | tip {side : Side} {id : NodeId} {atom : TypeVar} (tip : types.Tip id atom)
    (representable : types.Representable pointerSize id)
    (registered : types.Whole id → sealedTypes.get? (Reading.sealedAtom id) = some id) :
    Depicts types pointerSize sealedTypes (.atom (side.bounds atom)) id
  | pointer {id target : NodeId} {shape : Shape} {size : Nat}
    (found : types.get? id = some (.pointer (some target))) (parted : ¬ types.Whole id)
    (inner : Depicts types pointerSize sealedTypes shape target) :
    Depicts types pointerSize sealedTypes (.pointer size shape) id
  | record {id target : NodeId} {fields : List (Nat × NodeId)} {shapeOf : Nat × NodeId → Shape}
    {parts : List (Nat × Nat × Shape)}
    (listed : parts = fields.map fun field =>
      (field.1, types.width pointerSize field.2, shapeOf field))
    (found : types.get? id = some (.pointer (some target))) (parted : ¬ types.Whole id)
    (present : types.get? target = some (.struct (extent parts) fields))
    (solid : fields ≠ [])
    (inner : ∀ field ∈ fields, Depicts types pointerSize sealedTypes (shapeOf field) field.2) :
    Depicts types pointerSize sealedTypes (.record [] parts) id

namespace Sketch
variable {s : Sketch} {types : TypeTable} {pointerSize : Nat} {side : Side} {v : TypeVar}
variable {id : NodeId}

private theorem shapeTo_of_closed {depth : Nat} (none : (s.derefs v).entries = []) :
    s.shapeTo depth v = .atom (s.boundsOf v) := by
  cases depth with
  | zero => rfl
  | succ depth => rw [shapeTo, none]

private theorem deep_of_opened {depth : Nat} {target : NodeId} {node : TypeNode}
    (narrow : pointerSize ≤ 16)
    (opened : types.Opened id target node)
    (inner : ∀ part ∈ node.parts target, types.Representable pointerSize part.2)
    (deep : ∀ w last, types.Leaf pointerSize side v id w last →
      w.path.length ≤ v.path.length + 2 * depth) :
    ∃ rest, depth = rest + 1 ∧ ∀ part ∈ node.parts target, ∀ n,
      types.SizeIs pointerSize part.2 n → ∀ w last,
        types.Leaf pointerSize side (side.reach v part.1 n) part.2 w last →
        w.path.length ≤ (side.reach v part.1 n).path.length + 2 * rest := by
  have longer (offset n : Nat) : (side.reach v offset n).path.length = v.path.length + 2 := by
    simp [TypeTable.reach_path]
  have below {part : Nat × NodeId} (inside : part ∈ node.parts target) {n : Nat}
      (sized : types.SizeIs pointerSize part.2 n) {w : TypeVar} {last : NodeId}
      (leaf : types.Leaf pointerSize side (side.reach v part.1 n) part.2 w last) :
      v.path.length + 2 ≤ w.path.length ∧ w.path.length ≤ v.path.length + 2 * depth := by
    constructor
    · rw [← longer part.1 n]
      exact leaf.extends.2.length_le
    · exact deep w last (.part opened.found opened.present inside sized leaf)
  obtain ⟨part, inside⟩ := List.exists_mem_of_ne_nil _ opened.solid
  obtain ⟨n, _, sized⟩ := (inner part inside).sized narrow (opened.solids part inside)
  obtain ⟨w, last, leaf⟩ := (inner part inside).exists_leaf narrow side (side.reach v part.1 n)
  have bounds := below inside sized leaf
  refine ⟨depth - 1, by omega, ?_⟩
  intro part inside n sized w last leaf
  have bounds := below inside sized leaf
  rw [longer]
  omega

end Sketch

theorem foldl_le_iff {α : Type} {op : Nat → α → Nat} {fits : α → Prop} {bound : Nat}
    (step : ∀ n a, op n a ≤ bound ↔ n ≤ bound ∧ fits a) (l : List α) (start : Nat) :
    l.foldl op start ≤ bound ↔ start ≤ bound ∧ ∀ a ∈ l, fits a := by
  induction l generalizing start with
  | nil => simp
  | cons a rest ih => rw [List.foldl_cons, ih, step, List.forall_mem_cons, and_assoc]

theorem extent_le_iff {fields : List (Nat × Nat × Shape)} {bound : Nat} :
    extent fields ≤ bound ↔ ∀ field ∈ fields, (UInt64.ofNat (field.1 + field.2.1)).toNat ≤ bound := by
  have step (n : Nat) (field : Nat × Nat × Shape) :
      max n (UInt64.ofNat (field.1 + field.2.1)).toNat ≤ bound ↔
        n ≤ bound ∧ (UInt64.ofNat (field.1 + field.2.1)).toNat ≤ bound := Nat.max_le
  exact (foldl_le_iff step fields 0).trans (and_iff_right (Nat.zero_le bound))

theorem le_extent {fields : List (Nat × Nat × Shape)} {field : Nat × Nat × Shape}
    (inside : field ∈ fields) (near : field.1 + field.2.1 < 2 ^ 64) :
    field.1 + field.2.1 ≤ extent fields := by
  have counted := extent_le_iff.mp (Nat.le_refl (extent fields)) field inside
  rwa [UInt64.toNat_ofNat_of_lt' near] at counted

theorem extent_eq {fields : List (Nat × Nat × Shape)} {size : Nat}
    (near : ∀ field ∈ fields, field.1 + field.2.1 < 2 ^ 64)
    (bounded : ∀ field ∈ fields, field.1 + field.2.1 ≤ size)
    (tight : ∃ field ∈ fields, field.1 + field.2.1 = size) : extent fields = size := by
  obtain ⟨field, inside, rfl⟩ := tight
  apply Nat.le_antisymm
  · refine extent_le_iff.mpr fun other listed => ?_
    rw [UInt64.toNat_ofNat_of_lt' (near other listed)]
    exact bounded other listed
  · exact le_extent inside (near field inside)

namespace Sketch
variable {s : Sketch} {types : TypeTable} {pointerSize : Nat} {side : Side} {v : TypeVar}
variable {id : NodeId}

private theorem shapeTo_of_spread {depth : Nat} {fields : List (Nat × NodeId)}
    {size : Nat × NodeId → Nat}
    {next : Nat × NodeId → TypeVar}
    (spread : 2 ≤ fields.length ∨ ∃ field, fields = [field] ∧ field.1 ≠ 0)
    (entries : (s.derefs v).entries =
      fields.map fun field => ((field.1 : Int), size field, next field)) :
    s.shapeTo (depth + 1) v = .record []
      (fields.map fun field => (field.1, size field, s.shapeTo depth (next field))) := by
  have negative : (fields.map fun field => ((field.1 : Int), size field, next field)).filter
      (fun entry => entry.1 < 0) = [] := by
    rw [List.filter_eq_nil_iff, List.forall_mem_map]
    intro field _
    simp
  have positive : (fields.map fun field => ((field.1 : Int), size field, next field)).filter
      (fun entry => 0 ≤ entry.1) = fields.map fun field => ((field.1 : Int), size field, next field) := by
    rw [List.filter_eq_self, List.forall_mem_map]
    intro field _
    simp
  rw [shapeTo, entries]
  split
  next none =>
    obtain rfl := List.map_eq_nil_iff.mp none
    simp at spread
  next single =>
    obtain ⟨field, rfl, same⟩ := List.map_eq_singleton_iff.mp single
    simp only [List.length_singleton, List.cons.injEq, and_true, exists_eq_left'] at spread
    simp only [Prod.mk.injEq] at same
    omega
  next =>
    rw [negative, positive, List.map_map]
    rfl

/-- The depth is enough when every leaf lies within that many dereferences. -/
theorem depicts_shapeTo {depth : Nat} {sealedTypes : SealedTypes}
    (representable : types.Representable pointerSize id)
    (narrow : pointerSize ≤ 16) (covers : s.Covers types pointerSize side v id)
    (registered : ∀ w last, types.Leaf pointerSize side v id w last → types.Whole last →
      sealedTypes.get? (Reading.sealedAtom last) = some last)
    (deep : ∀ w last, types.Leaf pointerSize side v id w last →
      w.path.length ≤ v.path.length + 2 * depth) :
    Depicts types pointerSize sealedTypes (s.shapeTo depth v) id := by
  have ends {v : TypeVar} {id : NodeId} {depth : Nat} {atom : TypeVar}
      (representable : types.Representable pointerSize id) (tip : types.Tip id atom)
      (closed : ∀ part, ¬ types.PartOf id part) (covers : s.Covers types pointerSize side v id)
      (registered : ∀ w last, types.Leaf pointerSize side v id w last → types.Whole last →
        sealedTypes.get? (Reading.sealedAtom last) = some last) :
      Depicts types pointerSize sealedTypes (s.shapeTo depth v) id := by
    rw [shapeTo_of_closed (covers.derefs_eq_empty closed), covers.bounded (.here tip) tip]
    exact .tip tip representable (registered v id (.here tip))
  induction representable generalizing v depth with
  | scalar found scalar =>
    obtain ⟨name, named⟩ := scalar.exists_isNamed
    exact ends (.scalar found scalar) (.scalar found named)
      (TypeTable.not_partOf_of_scalar found scalar) covers registered
  | whole whole => exact ends (.whole whole) (.whole whole) whole.not_partOf covers registered
  | @pointer id target found solid inner ih =>
    obtain ⟨node, opened, parts⟩ := TypeTable.Representable.opened_of_pointer found solid inner
    have all : ∀ part ∈ node.parts target, types.Representable pointerSize part.2 := by
      simpa [parts] using inner
    obtain ⟨rest, rfl, deeper⟩ := deep_of_opened narrow opened all deep
    have inside : (0, target) ∈ node.parts target := by simp [parts]
    obtain ⟨n, _, sized⟩ := inner.sized narrow solid
    have entries := covers.derefs_eq opened narrow all
    rw [parts, List.map_singleton, sized.width_eq] at entries
    rw [shapeTo, entries]
    refine .pointer found opened.not_whole (ih (covers.of_part opened inside sized) ?_
      (deeper (0, target) inside n sized))
    exact fun w last leaf => registered w last (.part found opened.present inside sized leaf)
  | @record id target size fields found present increasing near spread solid inner bounded tight ih =>
    have opened : types.Opened id target (.struct size fields) := by
      refine ⟨found, present, ?_, increasing, near, solid⟩
      obtain ⟨field, inside, _⟩ := tight
      exact List.ne_nil_of_mem inside
    obtain ⟨rest, rfl, deeper⟩ := deep_of_opened narrow opened inner deep
    rw [shapeTo_of_spread spread (covers.derefs_eq opened narrow inner)]
    refine .record rfl found opened.not_whole ?_ opened.solid ?_
    · have measure (field : Nat × NodeId) (inside : field ∈ fields) :
          types.width pointerSize field.2 ≤ 16 ∧
            types.SizeIs pointerSize field.2 (types.width pointerSize field.2) := by
        obtain ⟨n, small, sized⟩ := (inner field inside).sized narrow (solid field inside)
        rw [sized.width_eq]
        exact ⟨small, sized⟩
      rw [extent_eq _ _ _, present]
      · rw [List.forall_mem_map]
        intro field inside
        have start := near field inside
        have small := (measure field inside).1
        dsimp only
        omega
      · rw [List.forall_mem_map]
        exact fun field inside => bounded field inside _ (measure field inside).2
      · obtain ⟨field, inside, n, sized, same⟩ := tight
        refine ⟨_, List.mem_map_of_mem inside, ?_⟩
        rw [sized.width_eq]
        exact same
    · intro field inside
      obtain ⟨n, _, sized⟩ := (inner field inside).sized narrow (solid field inside)
      rw [sized.width_eq]
      refine ih field inside (covers.of_part opened inside sized) ?_ (deeper field inside n sized)
      exact fun w last leaf => registered w last (.part found present inside sized leaf)

end Sketch
end TypeRecovery
