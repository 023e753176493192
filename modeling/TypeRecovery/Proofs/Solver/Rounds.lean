import Mathlib.Logic.Function.Iterate
import TypeRecovery.Proofs.Solver.Consequences

/-! Closing constraints in rounds. A round adds what any two constraints of a set give by
transitivity. Rounds over the visible constraints stay among the consequences, and a round that adds
nothing leaves a transitive set, which has them all. Since the set grows until then, it takes no
more rounds than there are consequences. -/
namespace TypeRecovery
open Relation

namespace ConstraintSet

/-- Adds the constraints from the lower side of one to the upper side of another that begins where
the first one ends. -/
def round (s : ConstraintSet) : ConstraintSet :=
  s.insertAll (s.toList.flatMap fun c =>
    (s.toList.filter fun d => d.lower = c.upper).map fun d => ⟨c.lower, d.upper⟩)

variable {s : ConstraintSet} {a b : TypeVar}

theorem mem_round : ⟨a, b⟩ ∈ s.round ↔ ⟨a, b⟩ ∈ s ∨ ∃ m, ⟨a, m⟩ ∈ s ∧ ⟨m, b⟩ ∈ s := by
  rw [round, OrdSet.mem_insertAll]
  apply or_congr_right
  simp only [List.mem_flatMap, List.mem_map, List.mem_filter, decide_eq_true_eq, Constraint.mk.injEq,
    ← OrdSet.mem_def]
  constructor
  · intro given
    obtain ⟨⟨x, m⟩, first, ⟨m', y⟩, ⟨second, meets⟩, rfl, rfl⟩ := given
    obtain rfl : m' = m := meets
    exact ⟨m', first, second⟩
  · intro given
    obtain ⟨m, first, second⟩ := given
    exact ⟨⟨a, m⟩, first, ⟨m, b⟩, ⟨second, rfl⟩, rfl, rfl⟩

theorem mem_of_round_eq {R : TypeVar → TypeVar → Prop} (stable : s.round = s)
    (inside : ∀ a b, R a b → ⟨a, b⟩ ∈ s) (chain : TransGen R a b) : ⟨a, b⟩ ∈ s := by
  induction chain with
  | single link => exact inside _ _ link
  | tail _ link ih =>
    rw [← stable]
    exact mem_round.mpr (.inr ⟨_, ih, inside _ _ link⟩)

end ConstraintSet

namespace Problem
variable {p : Problem} {f : String} {s : ConstraintSet}

private theorem round_subset (inside : ∀ c ∈ s, c ∈ p.consequences f) :
    ∀ c ∈ s.round, c ∈ p.consequences f := by
  intro c listed
  rcases ConstraintSet.mem_round.mp listed with old | ⟨m, first, second⟩
  · exact inside c old
  · have below := mem_consequences.mp (inside _ first)
    exact mem_consequences.mpr (below.trans (mem_consequences.mp (inside _ second)))

private theorem eq_consequences_of_round_eq (stable : s.round = s)
    (start : ∀ c ∈ p.visible f, c ∈ s) (inside : ∀ c ∈ s, c ∈ p.consequences f) :
    s = p.consequences f := by
  apply OrdSet.ext_mem
  intro c
  refine ⟨inside c, fun derived => ?_⟩
  exact ConstraintSet.mem_of_round_eq stable (fun a b seen => start _ seen)
    (mem_consequences.mp derived)

private theorem exists_rounds_from (start : ∀ c ∈ p.visible f, c ∈ s)
    (inside : ∀ c ∈ s, c ∈ p.consequences f) :
    ∃ n ≤ (p.consequences f).size - s.size, ConstraintSet.round^[n] s = p.consequences f := by
  -- Each round that adds something leaves fewer consequences missing.
  induction missing : (p.consequences f).size - s.size using Nat.strongRecOn generalizing s with
  | ind missing ih =>
    have wider (c : Constraint) (old : c ∈ s) : c ∈ s.round := ConstraintSet.mem_round.mpr (.inl old)
    by_cases closed : ∀ c ∈ s.round, c ∈ s
    · have stable : s.round = s := OrdSet.ext_mem fun c => ⟨closed c, wider c⟩
      exact ⟨0, Nat.zero_le _, eq_consequences_of_round_eq stable start inside⟩
    · obtain ⟨c, added, absent⟩ : ∃ c ∈ s.round, c ∉ s := by simpa using closed
      have grows : s.size < s.round.size := OrdSet.size_lt_of_subset wider added absent
      have bounded : s.round.size ≤ (p.consequences f).size :=
        OrdSet.size_le_of_subset (round_subset inside)
      obtain ⟨n, few, closes⟩ := ih _ (by omega) (fun d seen => wider d (start d seen))
        (round_subset inside) rfl
      refine ⟨n + 1, by omega, ?_⟩
      rw [Function.iterate_succ_apply]
      exact closes

theorem exists_rounds (p : Problem) (f : String) : ∃ n ≤ (p.consequences f).size,
    ConstraintSet.round^[n] (p.visible f) = p.consequences f := by
  obtain ⟨n, few, closes⟩ := exists_rounds_from (p := p) (f := f) (fun _ seen => seen)
    fun c seen => mem_consequences.mpr (.single seen)
  exact ⟨n, Nat.le_trans few (Nat.sub_le _ _), closes⟩

theorem round_consequences (p : Problem) (f : String) :
    (p.consequences f).round = p.consequences f := by
  apply OrdSet.ext_mem
  intro c
  exact ⟨round_subset (fun _ derived => derived) c,
    fun derived => ConstraintSet.mem_round.mpr (.inl derived)⟩

end Problem
end TypeRecovery
