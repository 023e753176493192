import TypeRecovery.Proofs.Lattice.Laws
import TypeRecovery.Proofs.Solver.Gathering
import TypeRecovery.Proofs.Solver.Rounds

/-! The solution of a problem, in terms of the constraints that a function and those it calls have.
What is derived for the function are the chains of these constraints between its own variables and
atoms. The sketch has a node for each variable of the function in such a chain and for those above
it, and the interval of a node is the tightest around it. -/
namespace TypeRecovery
open Relation

namespace Problem

section
variable (p : Problem) (f : String)

/-- A constraint of the function itself or of one that it calls, directly or not. -/
def Sees (a b : TypeVar) : Prop :=
  ∃ g, ReflTransGen p.calls.Edge f g ∧ ∃ set, p.constraints.get? g = some set ∧ ⟨a, b⟩ ∈ set

def Follows : TypeVar → TypeVar → Prop := TransGen (p.Sees f)

def Owns (v : TypeVar) : Prop := v.base = f ∧ ¬ p.lattice.contains v

def Mentions (v : TypeVar) : Prop := ∃ w, p.Follows f v w ∨ p.Follows f w v

structure Tightest (v : TypeVar) (bounds : Bounds) : Prop where
  lower : IsLUB (α := p.lattice.Element) {a | p.lattice.contains a ∧ p.Follows f a v} bounds.lower
  upper : IsGLB (α := p.lattice.Element) {a | p.lattice.contains a ∧ p.Follows f v a} bounds.upper
  atoms : p.lattice.contains bounds.lower ∧ p.lattice.contains bounds.upper
  unbounded_below : (∀ a, p.lattice.contains a → ¬ p.Follows f a v) →
    bounds.lower = AtomLattice.bottom
  unbounded_above : (∀ a, p.lattice.contains a → ¬ p.Follows f v a) →
    bounds.upper = AtomLattice.top

end

variable {p : Problem} {f : String} {a b v : TypeVar}

theorem visible_iff_sees : ⟨a, b⟩ ∈ p.visible f ↔ p.Sees f a b := mem_visible

theorem mem_consequences_iff_follows : ⟨a, b⟩ ∈ p.consequences f ↔ p.Follows f a b := by
  have same : p.Visible f = p.Sees f := by
    funext a b
    exact propext visible_iff_sees
  rw [mem_consequences, same]
  rfl

theorem owns_iff : p.owns f v ↔ p.Owns f v := by
  simp [owns, Owns]

theorem mem_derived : ⟨a, b⟩ ∈ p.derived f (p.consequences f) ↔ p.Follows f a b ∧
    (p.Owns f a ∧ p.lattice.contains b ∨ p.lattice.contains a ∧ p.Owns f b) := by
  simp only [derived, OrdSet.mem_filter, mem_consequences_iff_follows, Bool.or_eq_true,
    Bool.and_eq_true, owns_iff]

theorem mentions_iff : p.Mentions f v ↔ ∃ c ∈ p.visible f, v = c.lower ∨ v = c.upper := by
  constructor
  · intro given
    obtain ⟨w, forward | backward⟩ := given
    · obtain ⟨u, first, _⟩ := TransGen.head'_iff.mp forward
      exact ⟨⟨v, u⟩, visible_iff_sees.mpr first, .inl rfl⟩
    · obtain ⟨u, _, last⟩ := TransGen.tail'_iff.mp backward
      exact ⟨⟨u, v⟩, visible_iff_sees.mpr last, .inr rfl⟩
  · intro given
    obtain ⟨⟨a, b⟩, seen, rfl | rfl⟩ := given
    · exact ⟨b, .inl (.single (visible_iff_sees.mp seen))⟩
    · exact ⟨a, .inr (.single (visible_iff_sees.mp seen))⟩

theorem sketch_contains : (p.sketch f (p.consequences f)).nodes.contains v ↔
    v = ⟨f, []⟩ ∨ ∃ w, p.Owns f w ∧ p.Mentions f w ∧ v.base = w.base ∧ v.path <+: w.path := by
  have listed : (p.sketch f (p.consequences f)).nodes.contains v ↔ v ∈ p.sketchVariables f := by
    rw [OrdMap.contains, sketch_get?]
    split <;> simp_all
  rw [listed, mem_sketchVariables]
  simp only [owns_iff, ← mentions_iff, TypeVar.mem_ancestry]
  grind

private theorem sketch_root (all : ConstraintSet) : (p.sketch f all).root = ⟨f, []⟩ := by
  rw [sketch]
  induction (p.sketchVariables f).toList with
  | nil => rfl
  | cons v rest ih => exact ih

private theorem tightest_of_atoms {below above : List TypeVar}
    (lower : ∀ a, a ∈ below ↔ p.lattice.contains a ∧ p.Follows f a v)
    (upper : ∀ a, a ∈ above ↔ p.lattice.contains a ∧ p.Follows f v a) :
    p.Tightest f v ⟨p.lattice.joinAll below, p.lattice.meetAll above⟩ where
  lower := p.lattice.isLUB_joinAll lower
  upper := p.lattice.isGLB_meetAll upper
  atoms := ⟨p.lattice.contains_joinAll fun a listed => ((lower a).mp listed).1,
    p.lattice.contains_meetAll fun a listed => ((upper a).mp listed).1⟩
  unbounded_below none := p.lattice.eq_bottom_of_isLUB (p.lattice.isLUB_joinAll lower)
    fun a given => none a given.1 given.2
  unbounded_above none := p.lattice.eq_top_of_isGLB (p.lattice.isGLB_meetAll upper)
    fun a given => none a given.1 given.2

private theorem tightest_bounds (p : Problem) (f : String) (v : TypeVar) :
    p.Tightest f v (p.bounds (p.atomic (p.consequences f)) v) := by
  refine tightest_of_atoms (fun a => ?_) fun a => ?_
  · simp only [List.mem_map, List.mem_filter, ← OrdSet.mem_def, atomic, OrdSet.mem_filter,
      Bool.and_eq_true, Bool.or_eq_true, beq_iff_eq, ← mem_consequences_iff_follows]
    constructor
    · intro given
      obtain ⟨⟨a, b⟩, ⟨⟨derived, _⟩, rfl, atom⟩, rfl⟩ := given
      exact ⟨atom, derived⟩
    · intro given
      exact ⟨⟨a, v⟩, ⟨⟨given.2, .inl given.1⟩, rfl, given.1⟩, rfl⟩
  · simp only [List.mem_map, List.mem_filter, ← OrdSet.mem_def, atomic, OrdSet.mem_filter,
      Bool.and_eq_true, Bool.or_eq_true, beq_iff_eq, ← mem_consequences_iff_follows]
    constructor
    · intro given
      obtain ⟨⟨a, b⟩, ⟨⟨derived, _⟩, rfl, atom⟩, rfl⟩ := given
      exact ⟨atom, derived⟩
    · intro given
      exact ⟨⟨v, a⟩, ⟨⟨given.2, .inr given.1⟩, rfl, given.1⟩, rfl⟩

theorem byFunction_contains {α : Type} {found : String → α} : (p.byFunction found).contains v ↔
    ∃ g, p.constraints.contains g ∧ v = ⟨g, []⟩ := by
  simp only [OrdMap.contains_iff, byFunction_get?]
  grind

/-- Two functions that call each other, of which `odd` hands on its argument to `even`. -/
def evenOdd : Problem where
  lattice := {}
  constraints := .ofList [
    ("even", .ofList [⟨⟨"even", [.input 0]⟩, (Ground.unsigned .w32).toVar⟩]),
    ("odd", .ofList [⟨⟨"odd", [.input 0]⟩, ⟨"even", [.input 0]⟩⟩])]
  calls := .ofList [("even", .ofList ["odd"]), ("odd", .ofList ["even"])]

private theorem evenOdd_follows :
    evenOdd.Follows "odd" ⟨"odd", [.input 0]⟩ (Ground.unsigned .w32).toVar := by
  have own : evenOdd.Sees "odd" ⟨"odd", [.input 0]⟩ ⟨"even", [.input 0]⟩ :=
    ⟨"odd", .refl, _, by decide +kernel, OrdSet.mem_ofList.mpr (List.mem_singleton.mpr rfl)⟩
  have called : "even" ∈ evenOdd.calls.next "odd" := by decide +kernel
  have seen : evenOdd.Sees "odd" ⟨"even", [.input 0]⟩ (Ground.unsigned .w32).toVar :=
    ⟨"even", .single called, _, by decide +kernel,
      OrdSet.mem_ofList.mpr (List.mem_singleton.mpr rfl)⟩
  exact .tail (.single own) seen

private theorem evenOdd_owns : evenOdd.Owns "odd" ⟨"odd", [.input 0]⟩ := ⟨rfl, by decide +kernel⟩

/-- The search for what a function sees comes to an end, and so do rounds of transitivity over what
it finds. What is derived for the function is what they leave between its own variables and
atoms. -/
theorem closureSolver_derives (p : Problem) (f : String) (known : p.constraints.contains f) :
    ∃ solution set n, closureSolver p = .ok solution ∧
      (∀ v, solution.derived.contains v ↔ ∃ g, p.constraints.contains g ∧ v = ⟨g, []⟩) ∧
      (∀ v, solution.sketches.contains v ↔ ∃ g, p.constraints.contains g ∧ v = ⟨g, []⟩) ∧
      (∃ k, p.gather^[k] { waiting := [f] } = ⟨p.calls.reachable f, p.visible f, []⟩) ∧
      (∀ a b, ⟨a, b⟩ ∈ p.visible f ↔ p.Sees f a b) ∧
      (∀ a b, ⟨a, b⟩ ∈ ConstraintSet.round^[n] (p.visible f) ↔ p.Follows f a b) ∧
      ConstraintSet.round^[n + 1] (p.visible f) = ConstraintSet.round^[n] (p.visible f) ∧
      solution.derived.get? ⟨f, []⟩ = some set ∧
      ∀ a b, ⟨a, b⟩ ∈ set ↔ p.Follows f a b ∧
        (p.Owns f a ∧ p.lattice.contains b ∨ p.lattice.contains a ∧ p.Owns f b) := by
  obtain ⟨n, _, closes⟩ := p.exists_rounds f
  refine ⟨p.solveByClosure, p.derived f (p.consequences f), n, rfl, ?_, ?_,
    p.exists_gather f, fun _ _ => visible_iff_sees, ?_, ?_, ?_, fun _ _ => mem_derived⟩
  · intro v
    rw [solveByClosure_eq]
    exact byFunction_contains
  · intro v
    rw [solveByClosure_eq]
    exact byFunction_contains
  · intro a b
    rw [closes]
    exact mem_consequences_iff_follows
  · rw [Function.iterate_succ_apply', closes, p.round_consequences]
  · rw [solveByClosure_eq]
    exact byFunction_get?.mpr ⟨f, known, rfl, rfl⟩

theorem closureSolver_derives_recursive : evenOdd.constraints.contains "odd" ∧
    ∃ solution set, closureSolver evenOdd = .ok solution ∧
      solution.derived.get? ⟨"odd", []⟩ = some set ∧
      ⟨⟨"odd", [.input 0]⟩, (Ground.unsigned .w32).toVar⟩ ∈ set := by
  have known : evenOdd.constraints.contains "odd" := by decide +kernel
  obtain ⟨solution, set, _, solved, _, _, _, _, _, _, found, exactly⟩ :=
    closureSolver_derives evenOdd "odd" known
  refine ⟨known, solution, set, solved, found, (exactly _ _).mpr ?_⟩
  exact ⟨evenOdd_follows, .inl ⟨evenOdd_owns, by decide +kernel⟩⟩

/-- A sketch has the variables of its function and all above them as nodes, each with the tightest
interval. -/
theorem closureSolver_sketches (p : Problem) (f : String) (known : p.constraints.contains f) :
    ∃ solution sketch, closureSolver p = .ok solution ∧
      solution.sketches.get? ⟨f, []⟩ = some sketch ∧ sketch.root = ⟨f, []⟩ ∧
      (∀ v, sketch.nodes.contains v ↔ v = ⟨f, []⟩ ∨
        ∃ w, p.Owns f w ∧ p.Mentions f w ∧ v.base = w.base ∧ v.path <+: w.path) ∧
      ∀ v bounds, sketch.nodes.get? v = some bounds → p.Tightest f v bounds := by
  refine ⟨p.solveByClosure, p.sketch f (p.consequences f), rfl,
    sketches_get?.mpr ⟨f, known, rfl, rfl⟩, sketch_root _, fun _ => sketch_contains, ?_⟩
  intro v bounds found
  rw [sketch_get?] at found
  obtain ⟨_, rfl⟩ := Option.ite_some_none_eq_some.mp found
  exact p.tightest_bounds f v

theorem closureSolver_sketches_recursive : evenOdd.constraints.contains "odd" ∧
    ∃ solution sketch bounds, closureSolver evenOdd = .ok solution ∧
      solution.sketches.get? ⟨"odd", []⟩ = some sketch ∧
      sketch.nodes.get? ⟨"odd", [.input 0]⟩ = some bounds ∧
      evenOdd.lattice.isSubtype bounds.upper (Ground.unsigned .w32).toVar := by
  have known : evenOdd.constraints.contains "odd" := by decide +kernel
  obtain ⟨solution, sketch, solved, found, _, nodes, tightest⟩ :=
    closureSolver_sketches evenOdd "odd" known
  have drawn := (nodes ⟨"odd", [.input 0]⟩).mpr (.inr ⟨_, evenOdd_owns,
    ⟨_, .inl evenOdd_follows⟩, rfl, List.prefix_refl _⟩)
  obtain ⟨bounds, given⟩ := (OrdMap.contains_iff _ _).mp drawn
  refine ⟨known, solution, sketch, bounds, solved, found, given, ?_⟩
  exact (tightest _ bounds given).upper.1 ⟨by decide +kernel, evenOdd_follows⟩

end Problem
end TypeRecovery
