import Mathlib.Logic.Function.Iterate
import TypeRecovery.Proofs.Solver.Consequences

/-! Gathering what a function sees from a stack of functions. The top is taken off and, unless it
was met before, leaves its constraints and puts its callees on the stack. At all times each
function to be met lies behind one on the stack, so an empty stack means that all were met. -/
namespace TypeRecovery
open Relation

/-- The state of the search. The next function of `waiting` stands first. -/
structure Gathering where
  met : OrdSet String := ∅
  gathered : ConstraintSet := ∅
  waiting : List String

namespace Problem

/-- Takes the next function. Of its callees, the last one is taken first. -/
def gather (p : Problem) (s : Gathering) : Gathering :=
  match s.waiting with
  | [] => s
  | f :: waiting =>
    if f ∈ s.met then { s with waiting }
    else
      { met := s.met.insert f
        gathered := s.gathered.union (p.ownConstraints f)
        waiting := (p.calls.next f).reverse ++ waiting }

/-- What holds of a search that starts at `f`. -/
structure Gathers (p : Problem) (f : String) (s : Gathering) : Prop where
  start : f ∈ s.met ∨ f ∈ s.waiting
  met : ∀ g ∈ s.met, ReflTransGen p.calls.Edge f g
  waiting : ∀ g ∈ s.waiting, ReflTransGen p.calls.Edge f g
  callees : ∀ g ∈ s.met, ∀ h, p.calls.Edge g h → h ∈ s.met ∨ h ∈ s.waiting
  gathered : ∀ c, c ∈ s.gathered ↔ ∃ g ∈ s.met, c ∈ p.ownConstraints g

variable {p : Problem} {f g : String} {s : Gathering} {waiting : List String}

private theorem gather_met (next : s.waiting = g :: waiting) (old : g ∈ s.met) :
    p.gather s = { s with waiting } := by
  simp only [gather, next, if_pos old]

private theorem gather_new (next : s.waiting = g :: waiting) (new : g ∉ s.met) :
    p.gather s = ⟨s.met.insert g, s.gathered.union (p.ownConstraints g),
      (p.calls.next g).reverse ++ waiting⟩ := by
  simp only [gather, next, if_neg new]

theorem Gathers.gather (now : p.Gathers f s) : p.Gathers f (p.gather s) := by
  cases next : s.waiting with
  | nil => simpa only [Problem.gather, next] using now
  | cons g waiting =>
    have behind : ReflTransGen p.calls.Edge f g := now.waiting g (by simp [next])
    have rest (h : String) (listed : h ∈ waiting) : ReflTransGen p.calls.Edge f h :=
      now.waiting h (by simp [next, listed])
    by_cases old : g ∈ s.met
    · rw [gather_met next old]
      have kept {h : String} (given : h ∈ s.met ∨ h ∈ s.waiting) : h ∈ s.met ∨ h ∈ waiting := by
        rw [next, List.mem_cons] at given
        rcases given with before | rfl | later
        exacts [.inl before, .inl old, .inr later]
      exact ⟨kept now.start, now.met, rest,
        fun h before i edge => kept (now.callees h before i edge), now.gathered⟩
    · rw [gather_new next old]
      have kept {h : String} (given : h ∈ s.met ∨ h ∈ s.waiting) :
          h ∈ s.met.insert g ∨ h ∈ (p.calls.next g).reverse ++ waiting := by
        rw [next, List.mem_cons] at given
        rcases given with before | rfl | later
        · exact .inl (OrdSet.mem_insert.mpr (.inr before))
        · exact .inl (OrdSet.mem_insert.mpr (.inl rfl))
        · exact .inr (List.mem_append_right _ later)
      refine ⟨kept now.start, fun h inside => ?_, fun h listed => ?_, fun h inside i edge => ?_,
        fun c => ?_⟩
      · rcases OrdSet.mem_insert.mp inside with rfl | before
        exacts [behind, now.met h before]
      · rcases List.mem_append.mp listed with callee | later
        exacts [behind.tail (List.mem_reverse.mp callee), rest h later]
      · rcases OrdSet.mem_insert.mp inside with rfl | before
        · exact .inr (List.mem_append_left _ (List.mem_reverse.mpr edge))
        · exact kept (now.callees h before i edge)
      · simp only [OrdSet.mem_union, now.gathered, OrdSet.mem_insert]
        grind

private theorem Gathers.eq_of_waiting_nil (now : p.Gathers f s) (done : s.waiting = []) :
    s = ⟨p.calls.reachable f, p.visible f, []⟩ := by
  obtain ⟨met, gathered, waiting⟩ := s
  obtain rfl : waiting = [] := done
  have reached (g : String) : g ∈ met ↔ ReflTransGen p.calls.Edge f g := by
    refine ⟨now.met g, fun chain => ?_⟩
    induction chain with
    | refl => simpa using now.start
    | tail _ edge ih => simpa using now.callees _ ih _ edge
  obtain rfl : met = p.calls.reachable f :=
    OrdSet.ext_mem fun g => (reached g).trans Graph.mem_reachable.symm
  obtain rfl : gathered = p.visible f := by
    apply OrdSet.ext_mem
    intro c
    rw [now.gathered, mem_visible]
    simp only [Graph.mem_reachable, mem_ownConstraints]
  rfl

private theorem Gathers.exists_iterate (now : p.Gathers f s) :
    ∃ n, p.gather^[n] s = ⟨p.calls.reachable f, p.visible f, []⟩ := by
  -- A new function leaves fewer to be met, and one met before leaves a shorter stack.
  induction unmet : (p.calls.reachable f).size - s.met.size using Nat.strongRecOn generalizing s with
  | ind unmet fewer =>
    induction next : s.waiting generalizing s with
    | nil => exact ⟨0, now.eq_of_waiting_nil next⟩
    | cons g waiting shorter =>
      by_cases old : g ∈ s.met
      · have same : p.gather s = { s with waiting } := gather_met next old
        obtain ⟨n, ends⟩ := shorter now.gather (by rwa [same]) (by rw [same])
        exact ⟨n + 1, ends⟩
      · have larger : (p.gather s).met = s.met.insert g := by rw [gather_new next old]
        have grows : s.met.size < (p.gather s).met.size := by
          rw [larger]
          exact OrdSet.size_lt_of_subset (fun h inside => OrdSet.mem_insert.mpr (.inr inside))
            (OrdSet.mem_insert.mpr (.inl rfl)) old
        have bounded : (p.gather s).met.size ≤ (p.calls.reachable f).size :=
          OrdSet.size_le_of_subset fun h inside => Graph.mem_reachable.mpr (now.gather.met h inside)
        obtain ⟨n, ends⟩ := fewer _ (by omega) now.gather rfl
        exact ⟨n + 1, ends⟩

theorem exists_gather (p : Problem) (f : String) :
    ∃ n, p.gather^[n] { waiting := [f] } = ⟨p.calls.reachable f, p.visible f, []⟩ := by
  have start : p.Gathers f { waiting := [f] } := by
    refine ⟨.inr (List.mem_singleton.mpr rfl), by simp, fun g listed => ?_, by simp, by simp⟩
    rw [List.mem_singleton.mp listed]
  exact start.exists_iterate

end Problem
end TypeRecovery
