import TypeRecovery.Proofs.Graph
import TypeRecovery.Solver.Closure

/-! What solving by transitivity derives. The consequences of constraints are the pairs that a
chain of them connects, and a sketch has a node for every variable that its function owns and for
all that lie above one. -/
namespace TypeRecovery
open Relation

namespace TypeVar

theorem mem_ancestry {v w : TypeVar} : v ∈ w.ancestry ↔ v.base = w.base ∧ v.path <+: w.path := by
  simp only [ancestry, List.mem_map, List.mem_range]
  constructor
  · intro given
    obtain ⟨n, _, rfl⟩ := given
    exact ⟨rfl, List.take_prefix n w.path⟩
  · intro given
    obtain ⟨same, start⟩ := given
    refine ⟨v.path.length, Nat.lt_succ_of_le start.length_le, ?_⟩
    rw [← List.prefix_iff_eq_take.mp start, ← same]

end TypeVar

namespace Problem
variable {p : Problem} {f : String} {c : Constraint} {v : TypeVar}

def ownConstraints (p : Problem) (f : String) : ConstraintSet := (p.constraints.get? f).getD ∅

theorem mem_ownConstraints : c ∈ p.ownConstraints f ↔
    ∃ set, p.constraints.get? f = some set ∧ c ∈ set := by
  rw [ownConstraints]
  cases p.constraints.get? f with
  | none => exact iff_of_false OrdSet.not_mem_empty (by simp)
  | some set => simp

theorem mem_visible : c ∈ p.visible f ↔
    ∃ g, ReflTransGen p.calls.Edge f g ∧ ∃ set, p.constraints.get? g = some set ∧ c ∈ set := by
  simp only [visible, OrdSet.mem_ofList, List.mem_flatMap, ← OrdSet.mem_def, Graph.mem_reachable]
  exact exists_congr fun g => and_congr_right fun _ => mem_ownConstraints

theorem visible_of_no_calls (alone : p.calls.next f = []) : p.visible f = p.ownConstraints f := by
  apply OrdSet.ext_mem
  intro c
  rw [mem_visible, mem_ownConstraints]
  constructor
  · intro given
    obtain ⟨g, path, known⟩ := given
    rcases path.cases_head with rfl | ⟨h, edge, -⟩
    · exact known
    · rw [Graph.Edge, alone] at edge
      contradiction
  · exact fun known => ⟨f, .refl, known⟩

private theorem order_edge {a b : TypeVar} : (p.order f).Edge a b ↔ ⟨a, b⟩ ∈ p.visible f := by
  rw [order, OrdSet.mem_def]
  induction (p.visible f).toList with
  | nil => simp [Graph.edge_iff]
  | cons c rest ih => rw [List.foldr_cons, Graph.addEdge_edge, ih, List.mem_cons, Constraint.mk.injEq]

def Visible (p : Problem) (f : String) (a b : TypeVar) : Prop := ⟨a, b⟩ ∈ p.visible f

theorem mem_consequences :
    c ∈ p.consequences f ↔ TransGen (p.Visible f) c.lower c.upper := by
  have edges : (p.order f).Edge = p.Visible f := by
    funext a b
    exact propext order_edge
  rw [← edges, ← Graph.mem_closure, consequences, OrdSet.mem_ofList, List.mem_map]
  constructor
  · intro given
    obtain ⟨⟨a, b⟩, inside, rfl⟩ := given
    exact inside
  · intro inside
    exact ⟨_, inside, rfl⟩

theorem consequences_of_single (single : p.visible f = OrdSet.ofList [c]) :
    p.consequences f = OrdSet.ofList [c] := by
  have step {a b : TypeVar} : p.Visible f a b ↔ ⟨a, b⟩ = c := by
    rw [Visible, single, OrdSet.mem_ofList, List.mem_singleton]
  have ends {a b : TypeVar} (chain : TransGen (p.Visible f) a b) : (⟨a, b⟩ : Constraint) = c := by
    induction chain with
    | single first => exact step.mp first
    | tail _ last ih =>
      -- Both steps are the same constraint, so that it ends where it starts.
      rw [← step.mp last] at ih ⊢
      rw [(Constraint.mk.inj ih).1]
  apply OrdSet.ext_mem
  intro d
  rw [mem_consequences, OrdSet.mem_ofList, List.mem_singleton]
  constructor
  · exact fun chain => ends chain
  · rintro rfl
    exact .single (step.mpr rfl)

theorem mem_sketchVariables : v ∈ p.sketchVariables f ↔
    v = ⟨f, []⟩ ∨ ∃ w, p.owns f w ∧ v ∈ w.ancestry ∧
      ∃ c ∈ p.visible f, w = c.lower ∨ w = c.upper := by
  simp only [sketchVariables, OrdSet.mem_insert, OrdSet.mem_ofList, List.mem_flatMap,
    ← OrdSet.mem_def, List.mem_filter, List.mem_cons, List.not_mem_nil, or_false]
  apply or_congr_right
  apply exists_congr
  intro w
  grind

theorem sketch_get? (all : ConstraintSet) : (p.sketch f all).nodes.get? v =
    if v ∈ p.sketchVariables f then some (p.bounds (p.atomic all) v) else none := by
  simp only [sketch, OrdSet.mem_def]
  generalize p.atomic all = known
  induction (p.sketchVariables f).toList with
  | nil => rfl
  | cons w rest ih =>
    rw [List.foldr_cons, Sketch.add, OrdMap.get?_insert, ih]
    by_cases here : v = w
    · simp [here]
    · simp [here]

def byFunction {α : Type} (p : Problem) (found : String → α) : OrdMap TypeVar α :=
  OrdMap.ofList (p.constraints.keys.map fun f => (⟨f, []⟩, found f))

theorem solveByClosure_eq : p.solveByClosure =
    { derived := p.byFunction fun f => p.derived f (p.consequences f)
      sketches := p.byFunction fun f => p.sketch f (p.consequences f) } := by
  have each (keys : List String) (solution : Solution) :
      keys.foldl (fun solution f =>
        let all := p.consequences f
        { derived := solution.derived.insert ⟨f, []⟩ (p.derived f all)
          sketches := solution.sketches.insert ⟨f, []⟩ (p.sketch f all) }) solution =
      { derived := solution.derived.insertAll
          (keys.map fun f => (⟨f, []⟩, p.derived f (p.consequences f)))
        sketches := solution.sketches.insertAll
          (keys.map fun f => (⟨f, []⟩, p.sketch f (p.consequences f))) } := by
    induction keys generalizing solution with
    | nil => rfl
    | cons f rest ih => rw [List.foldl_cons, ih, List.map_cons]; rfl
  exact each p.constraints.keys {}

theorem byFunction_get? {α : Type} {found : String → α} {x : α} :
    (p.byFunction found).get? v = some x ↔
      ∃ f, p.constraints.contains f ∧ v = ⟨f, []⟩ ∧ x = found f := by
  have distinct : ((p.constraints.keys.map fun f =>
      ((⟨f, []⟩ : TypeVar), found f)).map Prod.fst).Nodup := by
    rw [List.map_map]
    refine (OrdMap.nodup_keys p.constraints).map ?_
    intro a b same
    exact congrArg TypeVar.base same
  rw [byFunction, OrdMap.get?_ofList _ distinct]
  simp only [List.mem_map, Prod.mk.injEq, OrdMap.mem_keys, OrdMap.contains_iff]
  grind

theorem sketches_get? {s : Sketch} : p.solveByClosure.sketches.get? v = some s ↔
    ∃ g, p.constraints.contains g ∧ v = ⟨g, []⟩ ∧ s = p.sketch g (p.consequences g) := by
  rw [solveByClosure_eq]
  exact byFunction_get?

end Problem
end TypeRecovery
