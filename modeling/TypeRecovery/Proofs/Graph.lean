import Mathlib.Logic.Relation
import TypeRecovery.Graph
import TypeRecovery.Proofs.Ordered

/-! Walks over finite graphs find what a chain of edges leads to. A walk enters only what it has
not met, and that loses nothing: behind an element that was met before, all is found from there. -/
namespace TypeRecovery
open Relation

section
variable {α : Type} [BEq α] [LawfulBEq α] {next : α → List α}

/-- The step to a successor that may still be entered. -/
def EntersIn (next : α → List α) (unmet : List α) (a b : α) : Prop := b ∈ next a ∧ b ∈ unmet

private theorem leaves_of_enters {unmet queue : List α} {a b c : α} (queued : c ∈ a :: queue)
    (inside : c ∈ unmet) (chain : ReflTransGen (EntersIn next unmet) c b) (apart : b ≠ a) :
    ∃ d ∈ queue ++ next a, d ∈ unmet.erase a ∧
      ReflTransGen (EntersIn next (unmet.erase a)) d b := by
  -- What follows the last visit to `a` starts at a successor of `a` and does not return.
  induction chain with
  | refl =>
    have later : c ∈ queue := (List.mem_cons.mp queued).resolve_left apart
    exact ⟨c, List.mem_append_left _ later, (List.mem_erase_of_ne apart).mpr inside, .refl⟩
  | @tail x y before step ih =>
    have kept : y ∈ unmet.erase a := (List.mem_erase_of_ne apart).mpr step.2
    by_cases here : x = a
    · exact ⟨y, List.mem_append_right _ (here ▸ step.1), kept, .refl⟩
    · obtain ⟨d, start, fresh, path⟩ := ih here
      exact ⟨d, start, fresh, path.tail ⟨step.1, kept⟩⟩

theorem mem_reach {unmet queue : List α} {b : α} :
    b ∈ reach next unmet queue ↔
      ∃ a ∈ queue, a ∈ unmet ∧ ReflTransGen (EntersIn next unmet) a b := by
  fun_induction reach next unmet queue with
  | case1 => simp
  | case2 unmet a queue inside ih =>
    constructor
    · intro found
      rcases List.mem_cons.mp found with rfl | later
      · exact ⟨b, List.mem_cons_self, inside, .refl⟩
      · obtain ⟨c, queued, fresh, path⟩ := ih.mp later
        have wider : ReflTransGen (EntersIn next unmet) c b :=
          path.lift id fun _ _ step => ⟨step.1, List.mem_of_mem_erase step.2⟩
        rcases List.mem_append.mp queued with before | below
        · exact ⟨c, List.mem_cons_of_mem a before, List.mem_of_mem_erase fresh, wider⟩
        · exact ⟨a, List.mem_cons_self, inside, .head ⟨below, List.mem_of_mem_erase fresh⟩ wider⟩
    · intro given
      obtain ⟨c, queued, entered, path⟩ := given
      by_cases here : b = a
      · exact List.mem_cons.mpr (.inl here)
      · exact List.mem_cons.mpr (.inr (ih.mpr (leaves_of_enters queued entered path here)))
  | case3 unmet a queue outside ih =>
    rw [ih]
    constructor
    · intro given
      obtain ⟨c, queued, rest⟩ := given
      exact ⟨c, List.mem_cons_of_mem a queued, rest⟩
    · intro given
      obtain ⟨c, queued, entered, path⟩ := given
      have other : c ≠ a := fun same => outside (same ▸ entered)
      exact ⟨c, (List.mem_cons.mp queued).resolve_left other, entered, path⟩

theorem mem_of_mem_reach {unmet queue : List α} {b : α} (found : b ∈ reach next unmet queue) :
    b ∈ unmet := by
  obtain ⟨a, _, entered, path⟩ := mem_reach.mp found
  rcases path.cases_tail with rfl | ⟨_, _, step⟩
  · exact entered
  · exact step.2

theorem nodup_reach {unmet queue : List α} (distinct : unmet.Nodup) :
    (reach next unmet queue).Nodup := by
  fun_induction reach next unmet queue with
  | case1 => exact List.nodup_nil
  | case2 unmet a queue inside ih =>
    refine List.nodup_cons.mpr ⟨fun again => ?_, ih (distinct.erase a)⟩
    exact distinct.not_mem_erase (mem_of_mem_reach again)
  | case3 unmet a queue outside ih => exact ih distinct

end

namespace Graph
variable {α : Type} [Ord α] {g : Graph α} {a b : α}

def Edge (g : Graph α) (a b : α) : Prop := b ∈ g.next a

theorem edge_iff : g.Edge a b ↔ ∃ successors, g.get? a = some successors ∧ b ∈ successors := by
  rw [Edge, next]
  cases found : g.get? a with
  | none => exact iff_of_false OrdSet.not_mem_empty (by simp)
  | some successors => simp [OrdSet.mem_def]

variable [Std.TransOrd α] [Std.LawfulEqOrd α]

theorem mem_targets : b ∈ g.targets ↔ ∃ a, g.Edge a b := by
  simp only [targets, OrdSet.mem_ofList, List.mem_flatMap, OrdMap.mem_values, edge_iff]
  constructor
  · intro given
    obtain ⟨successors, ⟨a, found⟩, inside⟩ := given
    exact ⟨a, successors, found, inside⟩
  · intro given
    obtain ⟨a, successors, found, inside⟩ := given
    exact ⟨successors, ⟨a, found⟩, inside⟩

theorem addEdge_edge [DecidableEq α] {x y : α} :
    (g.addEdge x y).Edge a b ↔ (a = x ∧ b = y) ∨ g.Edge a b := by
  rw [edge_iff, edge_iff]
  exact OrdMap.holds_put

theorem enters_iff {unmet : List α} (all : ∀ b ∈ g.targets, b ∈ unmet) :
    ReflTransGen (EntersIn g.next unmet) a b ↔ ReflTransGen g.Edge a b := by
  constructor
  · exact fun chain => chain.lift id fun _ _ step => step.1
  · exact fun chain => chain.lift id fun _ y step => ⟨step, all y (mem_targets.mpr ⟨_, step⟩)⟩

variable [DecidableEq α]

theorem mem_reachable : b ∈ g.reachable a ↔ ReflTransGen g.Edge a b := by
  have all : ∀ x ∈ g.targets, x ∈ (g.targets.insert a).toList :=
    fun _ inside => OrdSet.mem_insert.mpr (.inr inside)
  have self : a ∈ (g.targets.insert a).toList := OrdSet.mem_insert.mpr (.inl rfl)
  simp only [reachable, OrdSet.mem_ofList, mem_reach, List.mem_singleton, exists_eq_left, self,
    true_and, enters_iff all]

theorem mem_closure : (a, b) ∈ g.closure ↔ TransGen g.Edge a b := by
  have all : ∀ x ∈ g.targets, x ∈ g.targets.toList := fun _ inside => inside
  simp only [closure, List.mem_flatMap, List.mem_map, Prod.mk.injEq, mem_reach, enters_iff all]
  rw [TransGen.head'_iff]
  constructor
  · intro given
    obtain ⟨_, _, _, ⟨c, edge, _, path⟩, rfl, rfl⟩ := given
    exact ⟨c, edge, path⟩
  · intro given
    obtain ⟨c, edge, path⟩ := given
    obtain ⟨successors, found, _⟩ := edge_iff.mp edge
    exact ⟨a, (OrdMap.mem_keys g a).mpr ⟨successors, found⟩, b,
      ⟨c, edge, mem_targets.mpr ⟨a, edge⟩, path⟩, rfl, rfl⟩

end Graph
end TypeRecovery
