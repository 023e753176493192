import TypeRecovery.Proofs.Prototype.Annotations
import TypeRecovery.Proofs.Solver.Consequences

/-! Sketches of functions whose constraints are those of their prototypes. An argument's variable
lies only below atoms and a result's only above them, so chains of constraints are short: what
bounds a variable is just what its own leaf says, whatever other functions are in sight. -/
namespace TypeRecovery
open Relation

def Side.bounds (side : Side) (atom : TypeVar) : Bounds :=
  match side with
  | left => ⟨AtomLattice.bottom, atom⟩
  | right => ⟨atom, AtomLattice.top⟩

namespace AtomLattice

private theorem joinAll_singleton (l : AtomLattice) (atom : TypeVar) : l.joinAll [atom] = atom := by
  simp only [joinAll, List.foldl_cons, List.foldl_nil, join]
  split
  next same => rcases same with rfl | rfl <;> rfl
  next => simp

private theorem meetAll_singleton (l : AtomLattice) (atom : TypeVar) : l.meetAll [atom] = atom := by
  simp only [meetAll, List.foldl_cons, List.foldl_nil, meet]
  split
  next same => rcases same with rfl | rfl <;> rfl
  next => simp

end AtomLattice

private theorem filter_eq_singleton {α : Type} [DecidableEq α] {l : List α} {p : α → Bool} {a : α}
    (distinct : l.Nodup) (inside : a ∈ l) (only : ∀ b ∈ l, p b = true ↔ b = a) :
    l.filter p = [a] := by
  have same : l.filter p = l.filter (· == a) := by
    apply List.filter_congr
    intro b listed
    rw [Bool.eq_iff_iff, only b listed, beq_iff_eq]
  rw [same, List.filter_beq, List.count_eq_one_of_mem distinct inside]
  rfl

namespace Problem
variable {p : Problem} {m : CodeModule} {words : WordSizes}

/-- The constraints of a problem are those of the prototypes of a module, and its lattice has the
atoms that they speak of. -/
structure Poses (p : Problem) (m : CodeModule) (words : WordSizes) : Prop where
  sound : ∀ name set, p.constraints.get? name = some set → ∃ id type ret params,
    m.Declares words id type name ret params ∧ ∀ c, c ∈ set ↔ m.Finds words name ret params c
  complete : ∀ id type name ret params, m.Declares words id type name ret params →
    p.constraints.contains name
  atoms : ∀ {id type name ret params side w last atom}, m.Declares words id type name ret params →
    m.Ends words name ret params side w last → m.types.Tip last atom → p.lattice.contains atom
  plain : ∀ v, p.lattice.contains v → v.path = []

end Problem

namespace CodeModule
variable {m : CodeModule} {words : WordSizes} {name : String} {ret last : NodeId}
variable {params : List NodeId} {side : Side} {w : TypeVar}

theorem Ends.path (ends : m.Ends words name ret params side w last) :
    w.base = name ∧ match side with
      | .left => ∃ index, w.path.head? = some (.input index)
      | .right => w.path.head? = some .output := by
  obtain ⟨v, id, slot, leaf⟩ := ends
  obtain ⟨base, rest, path⟩ := leaf.extends
  cases slot with
  | argument => exact ⟨base, _, by rw [← path]; rfl⟩
  | result => exact ⟨base, by rw [← path]; rfl⟩

theorem Slot.length_path {v : TypeVar} {id : NodeId} (slot : Slot name ret params side v id) :
    v.base = name ∧ v.path.length = 1 := by
  cases slot <;> exact ⟨rfl, rfl⟩

theorem Annotates.slot_unique {type id id' : NodeId} {side' : Side} {v : TypeVar}
    (annotates : m.Annotates words type ret params) (first : Slot name ret params side v id)
    (second : Slot name ret params side' v id') : side = side' ∧ id = id' := by
  cases first with
  | @argument i id declared =>
    generalize same : TypeVar.mk name [Label.input (UInt64.ofNat i)] = v at second
    cases second with
    | @argument j id' declared' =>
      have bound := (List.getElem?_eq_some_iff.mp declared).1
      have bound' := (List.getElem?_eq_some_iff.mp declared').1
      have few := annotates.few
      have indices : UInt64.ofNat i = UInt64.ofNat j := by simpa using same
      have values := congrArg UInt64.toNat indices
      simp only [UInt64.toNat_ofNat'] at values
      obtain rfl : i = j := by omega
      exact ⟨rfl, Option.some.inj (declared.symm.trans declared')⟩
    | result => simp at same
  | result =>
    cases second with
    | result => exact ⟨rfl, rfl⟩

theorem Slot.eq_of_extends {v v' : TypeVar} {id id' : NodeId} {side' : Side} {path : List Label}
    (first : Slot name ret params side v id) (second : Slot name ret params side' v' id')
    (way : v.path <+: path) (way' : v'.path <+: path) : v = v' := by
  have size : v.path.length = v'.path.length := first.length_path.2.trans second.length_path.2.symm
  have paths := (List.prefix_of_prefix_length_le way way' (Nat.le_of_eq size)).eq_of_length size
  obtain ⟨base, path⟩ := v
  obtain ⟨base', path'⟩ := v'
  obtain rfl : base = name := first.length_path.1
  obtain rfl : base' = base := second.length_path.1
  exact congrArg (TypeVar.mk base') paths

private theorem Annotates.ends_unique {type last' : NodeId} {side' : Side}
    (annotates : m.Annotates words type ret params)
    (first : m.Ends words name ret params side w last)
    (second : m.Ends words name ret params side' w last') : side = side' ∧ last = last' := by
  obtain ⟨v, id, slot, leaf⟩ := first
  obtain ⟨v', id', slot', leaf'⟩ := second
  obtain rfl := slot.eq_of_extends slot' leaf.extends.2 leaf'.extends.2
  obtain ⟨rfl, rfl⟩ := annotates.slot_unique slot slot'
  exact ⟨rfl, (annotates.representable slot).leaf_unique leaf leaf'⟩

theorem Ends.tip (ends : m.Ends words name ret params side w last) :
    ∃ atom, m.types.Tip last atom := by
  obtain ⟨_, _, _, leaf⟩ := ends
  exact leaf.tip

theorem Ends.path_ne_nil (ends : m.Ends words name ret params side w last) : w.path ≠ [] := by
  have first := ends.path.2
  intro empty
  cases side <;> simp [empty] at first

end CodeModule

/-- The sketch has the variables on the way to the leaves of a prototype, and bounds the leaves by
what is said of them. -/
structure Sketch.Outlines (s : Sketch) (m : CodeModule) (words : WordSizes) (name : String)
    (ret : NodeId) (params : List NodeId) : Prop where
  nodes : ∀ v, v ∈ s.nodes.keys ↔ v = ⟨name, []⟩ ∨
    ∃ side w last, m.Ends words name ret params side w last ∧ v ∈ w.ancestry
  bounded : ∀ {side w last atom}, m.Ends words name ret params side w last →
    m.types.Tip last atom → s.boundsOf w = side.bounds atom

namespace Problem
variable {p : Problem} {m : CodeModule} {words : WordSizes} {f : String} {a b : TypeVar}

theorem Poses.visible (poses : p.Poses m words) (seen : p.Visible f a b) :
    (∃ index, a.path.head? = some (.input index)) ∧ p.lattice.contains b ∨
      p.lattice.contains a ∧ b.path.head? = some .output := by
  obtain ⟨g, _, set, found, inside⟩ := mem_visible.mp seen
  obtain ⟨id, type, ret, params, declares, exact⟩ := poses.sound g set found
  obtain ⟨side, w, last, atom, ends, tip, same⟩ := (exact _).mp inside
  have known := poses.atoms declares ends tip
  cases side with
  | left =>
    obtain ⟨rfl, rfl⟩ := Constraint.mk.inj same
    exact .inl ⟨ends.path.2, known⟩
  | right =>
    obtain ⟨rfl, rfl⟩ := Constraint.mk.inj same
    exact .inr ⟨known, ends.path.2⟩

/-- Chains of constraints between a variable and an atom have one link. -/
theorem Poses.chain (poses : p.Poses m words) (chain : TransGen (p.Visible f) a b)
    (atom : p.lattice.contains a ∨ p.lattice.contains b) : p.Visible f a b := by
  rcases atom with atom | atom
  · -- what lies above an atom is a result, and nothing lies above that
    obtain ⟨c, first, rest⟩ := TransGen.head'_iff.mp chain
    have above : c.path.head? = some .output := by
      rcases poses.visible first with ⟨⟨_, start⟩, _⟩ | ⟨_, above⟩
      · simp [poses.plain a atom] at start
      · exact above
    rcases rest.cases_head with rfl | ⟨d, next, _⟩
    · exact first
    · rcases poses.visible next with ⟨⟨_, start⟩, _⟩ | ⟨known, _⟩
      · simp [above] at start
      · simp [poses.plain c known] at above
  · obtain ⟨c, rest, final⟩ := TransGen.tail'_iff.mp chain
    obtain ⟨index, below⟩ : ∃ index, c.path.head? = some (.input index) := by
      rcases poses.visible final with ⟨below, _⟩ | ⟨_, above⟩
      · exact below
      · simp [poses.plain b atom] at above
    rcases rest.cases_tail with rfl | ⟨d, _, next⟩
    · exact final
    · rcases poses.visible next with ⟨_, known⟩ | ⟨_, above⟩
      · simp [poses.plain c known] at below
      · simp [below] at above

theorem Poses.mem_atomic (poses : p.Poses m words) {c : Constraint} :
    c ∈ p.atomic (p.consequences f) ↔ c ∈ p.visible f := by
  rw [atomic, OrdSet.mem_filter, mem_consequences, Bool.or_eq_true]
  constructor
  · intro given
    obtain ⟨chain, atom⟩ := given
    exact poses.chain chain atom
  · intro seen
    refine ⟨.single seen, ?_⟩
    rcases poses.visible seen with ⟨_, known⟩ | ⟨known, _⟩
    · exact .inr known
    · exact .inl known

section
variable {id type ret last : NodeId} {params : List NodeId} {side : Side} {w atom : TypeVar}

private theorem Poses.visible_of_ends (poses : p.Poses m words) (annotated : m.Annotated words)
    (declares : m.Declares words id type f ret params)
    (ends : m.Ends words f ret params side w last) (tip : m.types.Tip last atom) :
    side.order w atom ∈ p.visible f := by
  obtain ⟨set, found⟩ := (OrdMap.contains_iff _ _).mp (poses.complete _ _ _ _ _ declares)
  obtain ⟨id', type', ret', params', declares', exact⟩ := poses.sound f set found
  obtain rfl := annotated.declares_id_unique declares declares'
  obtain ⟨-, -, rfl, rfl⟩ := annotated.declares_unique declares declares'
  exact mem_visible.mpr ⟨f, .refl, set, found, (exact _).mpr ⟨side, w, last, atom, ends, tip, rfl⟩⟩

private theorem Poses.ends_of_visible (poses : p.Poses m words) (annotated : m.Annotated words)
    (declares : m.Declares words id type f ret params) {c : Constraint} (seen : c ∈ p.visible f)
    (about : w = c.lower ∨ w = c.upper) (base : w.base = f) (own : ¬ p.lattice.contains w) :
    ∃ side last atom, m.Ends words f ret params side w last ∧ m.types.Tip last atom ∧
      c = side.order w atom := by
  obtain ⟨g, _, set, found, inside⟩ := mem_visible.mp seen
  obtain ⟨id', type', ret', params', declares', exact⟩ := poses.sound g set found
  obtain ⟨side, w', last, atom, ends, tip, rfl⟩ := (exact c).mp inside
  have known := poses.atoms declares' ends tip
  obtain rfl : w = w' := by
    cases side with
    | left =>
      rcases about with rfl | rfl
      · rfl
      · exact absurd known own
    | right =>
      rcases about with rfl | rfl
      · exact absurd known own
      · rfl
  obtain rfl : f = g := base.symm.trans ends.path.1
  obtain rfl := annotated.declares_id_unique declares declares'
  obtain ⟨-, -, rfl, rfl⟩ := annotated.declares_unique declares declares'
  exact ⟨side, last, atom, ends, tip, rfl⟩

private theorem Poses.owns_of_ends (poses : p.Poses m words)
    (ends : m.Ends words f ret params side w last) :
    ¬ p.lattice.contains w := fun known => ends.path_ne_nil (poses.plain w known)

private theorem Poses.bounds_eq (poses : p.Poses m words) (annotated : m.Annotated words)
    (declares : m.Declares words id type f ret params)
    (ends : m.Ends words f ret params side w last) (tip : m.types.Tip last atom) :
    p.bounds (p.atomic (p.consequences f)) w = side.bounds atom := by
  have known := poses.atoms declares ends tip
  have own := poses.owns_of_ends ends
  have distinct := OrdSet.nodup (p.atomic (p.consequences f))
  have inside : side.order w atom ∈ (p.atomic (p.consequences f)).toList :=
    poses.mem_atomic.mpr (poses.visible_of_ends annotated declares ends tip)
  have only {c : Constraint} (listed : c ∈ (p.atomic (p.consequences f)).toList)
      (about : w = c.lower ∨ w = c.upper) : c = side.order w atom := by
    obtain ⟨side', last', atom', ends', tip', rfl⟩ := poses.ends_of_visible annotated declares
      (poses.mem_atomic.mp listed) about ends.path.1 own
    obtain ⟨rfl, rfl⟩ := declares.annotates.ends_unique ends ends'
    rw [tip.unique tip']
  -- one of the two tests is passed by this constraint alone, the other by none
  have single {test : Constraint → Bool} (passes : test (side.order w atom))
      (about : ∀ c, test c → w = c.lower ∨ w = c.upper) :
      (p.atomic (p.consequences f)).toList.filter test = [side.order w atom] := by
    apply filter_eq_singleton distinct inside
    intro c listed
    constructor
    · exact fun passed => only listed (about c passed)
    · intro same
      subst same
      exact passes
  have empty {test : Constraint → Bool} (fails : ¬ test (side.order w atom))
      (about : ∀ c, test c → w = c.lower ∨ w = c.upper) :
      (p.atomic (p.consequences f)).toList.filter test = [] := by
    rw [List.filter_eq_nil_iff]
    intro c listed passed
    exact fails (only listed (about c passed) ▸ passed)
  have apart : atom ≠ w := fun same => own (same ▸ known)
  have lowers (c : Constraint) (passed : c.upper == w && p.lattice.contains c.lower) :
      w = c.lower ∨ w = c.upper := by
    simp only [Bool.and_eq_true, beq_iff_eq] at passed
    exact .inr passed.1.symm
  have uppers (c : Constraint) (passed : c.lower == w && p.lattice.contains c.upper) :
      w = c.lower ∨ w = c.upper := by
    simp only [Bool.and_eq_true, beq_iff_eq] at passed
    exact .inl passed.1.symm
  cases side with
  | left =>
    rw [bounds, empty (by simp [Side.order, apart]) lowers,
      single (by simp [Side.order, known]) uppers, Side.bounds]
    simp [Side.order, AtomLattice.meetAll_singleton, AtomLattice.joinAll]
  | right =>
    rw [bounds, single (by simp [Side.order, known]) lowers,
      empty (by simp [Side.order, apart]) uppers, Side.bounds]
    simp [Side.order, AtomLattice.joinAll_singleton, AtomLattice.meetAll]

theorem Poses.mem_sketchVariables (poses : p.Poses m words) (annotated : m.Annotated words)
    (declares : m.Declares words id type f ret params) {v : TypeVar} :
    v ∈ p.sketchVariables f ↔ v = ⟨f, []⟩ ∨
      ∃ side w last, m.Ends words f ret params side w last ∧ v ∈ w.ancestry := by
  rw [Problem.mem_sketchVariables]
  refine or_congr_right ?_
  constructor
  · intro given
    obtain ⟨w, owned, under, c, seen, about⟩ := given
    obtain ⟨base, own⟩ : w.base = f ∧ ¬ p.lattice.contains w := by
      simpa [owns] using owned
    obtain ⟨side, last, atom, ends, _⟩ :=
      poses.ends_of_visible annotated declares seen about base own
    exact ⟨side, w, last, ends, under⟩
  · intro given
    obtain ⟨side, w, last, ends, under⟩ := given
    obtain ⟨atom, tip⟩ := ends.tip
    refine ⟨w, ?_, under, _, poses.visible_of_ends annotated declares ends tip, ?_⟩
    · simp [owns, ends.path.1, poses.owns_of_ends ends]
    · cases side with
      | left => exact .inl rfl
      | right => exact .inr rfl

theorem Poses.outlines (poses : p.Poses m words) (annotated : m.Annotated words)
    (declares : m.Declares words id type f ret params) :
    (p.sketch f (p.consequences f)).Outlines m words f ret params where
  nodes v := by
    rw [← poses.mem_sketchVariables annotated declares, OrdMap.mem_keys, sketch_get?]
    split
    next inside => simp [inside]
    next outside => simp [outside]
  bounded {side w last atom} ends tip := by
    have inside : w ∈ p.sketchVariables f :=
      (poses.mem_sketchVariables annotated declares).mpr
        (.inr ⟨side, w, last, ends, TypeVar.mem_ancestry.mpr ⟨rfl, List.prefix_rfl⟩⟩)
    rw [Sketch.boundsOf, Sketch.get?, sketch_get?, if_pos inside]
    exact poses.bounds_eq annotated declares ends tip

end

end Problem
end TypeRecovery
