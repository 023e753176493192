import TypeRecovery.Proofs.Prototype.Completion
import TypeRecovery.Recovery

/-! Inferred types that cannot be recorded. Whether they can does not depend on the module, so
writing fails at the first module or not at all, and a failure at the first one leaves all that was
recorded before. -/
namespace TypeRecovery
open Relation

/-- What a module said about types is still said. -/
structure CodeModule.Retained (m after : CodeModule) : Prop where
  prototypes : after.prototypes = m.prototypes
  types : ∀ id node, m.types.get? id = some node → after.types.get? id = some node

theorem CodeModule.Retained.refl (m : CodeModule) : m.Retained m := ⟨rfl, fun _ _ found => found⟩

private theorem Recording.Kept.retained {r s : Recording} (kept : r.Kept s)
    (ids : ∀ id, r.target.types.contains id → id.value < r.supply.next) :
    r.target.Retained s.target := by
  refine ⟨kept.prototypes, fun id node found => ?_⟩
  rw [kept.types id (ids id ((OrdMap.contains_iff _ _).mpr ⟨node, found⟩)), found]

namespace Recovery
variable {inferred : Inferred} {supply : Supply} {modules : List CodeModule} {e : Error}

private theorem faulty_of_recordModules
    (failed : (recordModules inferred supply modules).1 = .error e) :
    inferred.Faulty := by
  induction modules generalizing supply with
  | nil => cases failed
  | cons m rest ih =>
    unfold recordModules at failed
    split at failed
    next stopped => exact (Recorder.recordInferred_error stopped).2
    next => exact ih failed

private theorem recordModules_retained
    (ids : ∀ m ∈ modules, ∀ id, m.types.contains id → id.value < supply.next)
    (failed : (recordModules inferred supply modules).1 = .error e) :
    List.Forall₂ CodeModule.Retained modules (recordModules inferred supply modules).2.1 := by
  cases modules with
  | nil => cases failed
  | cons m rest =>
    unfold recordModules at failed ⊢
    split at failed
    next stopped =>
      obtain ⟨kept, _⟩ := Recorder.recordInferred_error stopped
      simp only
      refine .cons (kept.retained (ids m List.mem_cons_self)) ?_
      exact List.forall₂_same.mpr fun _ _ => .refl _
    next done =>
      -- What one module takes, no later one refuses.
      exact absurd (faulty_of_recordModules failed) (Recorder.recordInferred_ok rfl done)

/-- Recording fails, whatever the module, just if a root leads to a union or out of the arena. Then
writing takes nothing away from any module. -/
theorem write_all_or_nothing (inferred : Inferred) :
    (∀ (m : CodeModule) (supply : Supply),
      (∃ e s, Recorder.recordInferred inferred { target := m, supply := supply } = .error e s) ↔
        ∃ v root h, inferred.roots.get? v = some root ∧
          ReflTransGen inferred.arena.Leads root h ∧ inferred.arena.Refuses h) ∧
    ∀ (r after : Recovery) (e : Error),
      (∀ m ∈ r.binary.modules, ∀ id, m.types.contains id → id.value < r.supply.next) →
      write inferred r = .error e after →
        List.Forall₂ CodeModule.Retained r.binary.modules after.binary.modules := by
  have spelled : inferred.Faulty ↔ ∃ v root h, inferred.roots.get? v = some root ∧
      ReflTransGen inferred.arena.Leads root h ∧ inferred.arena.Refuses h := by
    simp only [Inferred.Faulty, Arena.Faulty, Option.some.injEq]
    grind
  rw [← spelled]
  refine ⟨fun m supply => ⟨?_, ?_⟩, ?_⟩
  · intro failed
    obtain ⟨e, s, stopped⟩ := failed
    exact (Recorder.recordInferred_error stopped).2
  · intro faulty
    cases outcome : Recorder.recordInferred inferred { target := m, supply := supply } with
    | ok _ s => exact absurd faulty (Recorder.recordInferred_ok rfl outcome)
    | error e s => exact ⟨e, s, rfl⟩
  · intro r after e ids failed
    unfold write at failed
    dsimp only at failed
    split at failed
    next => cases failed
    next stopped =>
      obtain ⟨rfl, rfl⟩ := EStateM.Result.error.inj failed
      exact recordModules_retained ids stopped

def boxModule (name : String) (function type : NodeId) : CodeModule where
  name := name
  isa := .x64
  functions := [⟨function, [name], ∅, ∅⟩]
  types := .ofList [(type, .function none [])]
  prototypes := .ofList [(function, type)]

def boxes : Recovery where
  binary := { modules := [boxModule "box" ⟨7⟩ ⟨5⟩, boxModule "lid" ⟨8⟩ ⟨6⟩] }
  supply := ⟨10⟩
  calls := ∅

/-- A function that takes a pointer to a union. -/
def boxedUnion : Inferred where
  arena := ⟨#[.union none [], .pointer (some 0) 8, .function none [some 1]]⟩
  roots := .ofList [(⟨"lid", []⟩, 2)]

theorem write_all_or_nothing_union :
    (∃ e s, Recorder.recordInferred boxedUnion
      { target := boxModule "box" ⟨7⟩ ⟨5⟩, supply := ⟨10⟩ } = .error e s) ∧
    ∃ e after, write boxedUnion boxes = .error e after ∧
      List.Forall₂ CodeModule.Retained boxes.binary.modules after.binary.modules := by
  obtain ⟨refused, retained⟩ := write_all_or_nothing boxedUnion
  constructor
  · have inner : boxedUnion.arena.Leads 1 0 := ⟨.pointer (some 0) 8, rfl, by simp, by decide⟩
    have outer : boxedUnion.arena.Leads 2 1 := ⟨.function none [some 1], rfl, by simp, by decide⟩
    exact (refused _ _).mpr ⟨⟨"lid", []⟩, 2, 0, by decide +kernel, .tail (.single outer) inner,
      .inr ⟨none, [], rfl⟩⟩
  · have known : ∀ m ∈ boxes.binary.modules, ∀ id ∈ m.types.keys, id.value < boxes.supply.next := by
      decide +kernel
    have ids (m : CodeModule) (listed : m ∈ boxes.binary.modules) (id : NodeId)
        (inside : m.types.contains id) : id.value < boxes.supply.next :=
      known m listed id ((OrdMap.mem_keys _ _).mpr ((OrdMap.contains_iff _ _).mp inside))
    have fails : succeeds (write boxedUnion boxes) = false := by decide +kernel
    cases outcome : write boxedUnion boxes with
    | ok _ after => simp [outcome, succeeds] at fails
    | error e after => exact ⟨e, after, rfl, retained boxes after e ids outcome⟩

end Recovery
end TypeRecovery
