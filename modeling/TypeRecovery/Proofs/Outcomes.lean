import Mathlib.Data.List.Forall2
import TypeRecovery.Outcomes

/-! Lists of outcomes. Where all have to be good, it depends on which outcomes there are, and neither
on their order nor on their number. Where some may be missing, the others keep their order. -/
namespace TypeRecovery

theorem toOption_eq_some_iff {ε α : Type} {result : Except ε α} {a : α} :
    result.toOption = some a ↔ result = .ok a := by
  cases result <;> simp [Except.toOption]

theorem allOk_ok {α : Type} (a : α) (rest : List (Except Error α)) :
    allOk (.ok a :: rest) = (allOk rest).map (a :: ·) := by
  have same : firstFailure? (.ok a :: rest) = firstFailure? rest := rfl
  rw [allOk, allOk, same]
  cases firstFailure? rest <;> rfl

theorem allOk_error {α : Type} (e : Error) (rest : List (Except Error α)) :
    allOk (.error e :: rest) = .error e := rfl

theorem mem_of_allOk_error {α : Type} {outcomes : List (Except Error α)} {e : Error}
    (failed : allOk outcomes = .error e) : .error e ∈ outcomes := by
  induction outcomes with
  | nil => contradiction
  | cons first rest ih =>
    cases first with
    | error e' =>
      obtain rfl := Except.error.inj failed
      exact List.mem_cons_self
    | ok a =>
      rw [allOk_ok] at failed
      apply List.mem_cons_of_mem
      apply ih
      cases later : allOk rest with
      | ok found =>
        rw [later] at failed
        contradiction
      | error e' =>
        rw [later] at failed
        exact failed

theorem allOk_eq_ok_iff {α : Type} {outcomes : List (Except Error α)} {found : List α} :
    allOk outcomes = .ok found ↔ outcomes = found.map .ok := by
  induction outcomes generalizing found with
  | nil =>
    rw [eq_comm, List.nil_eq, List.map_eq_nil_iff]
    exact ⟨fun same => (Except.ok.inj same), fun same => congrArg Except.ok same⟩
  | cons first rest ih =>
    cases first with
    | error e => cases found <;> simp [allOk_error]
    | ok a =>
      rw [allOk_ok]
      cases found with
      | nil => cases allOk rest <;> simp [Except.map]
      | cons b found =>
        rw [List.map_cons, List.cons.injEq, ← ih]
        cases allOk rest <;> simp [Except.map]

theorem exists_allOk_iff {α : Type} {outcomes : List (Except Error α)} :
    (∃ found, allOk outcomes = .ok found) ↔ ∀ outcome ∈ outcomes, ∃ a, outcome = .ok a := by
  constructor
  · intro given outcome listed
    obtain ⟨found, all⟩ := given
    rw [allOk_eq_ok_iff.mp all] at listed
    obtain ⟨a, _, same⟩ := List.mem_map.mp listed
    exact ⟨a, same.symm⟩
  · intro good
    cases all : allOk outcomes with
    | ok found => exact ⟨found, rfl⟩
    | error e =>
      obtain ⟨a, same⟩ := good _ (mem_of_allOk_error all)
      contradiction

theorem toOption_allOk_map {α β : Type} {outcomes others : List (Except Error α)}
    {work : List α → β}
    (blind : ∀ l l', (∀ a, a ∈ l ↔ a ∈ l') → work l = work l')
    (same : ∀ outcome, outcome ∈ outcomes ↔ outcome ∈ others) :
    ((allOk outcomes).map work).toOption = ((allOk others).map work).toOption := by
  have agree : (∃ found, allOk outcomes = .ok found) ↔ ∃ found, allOk others = .ok found := by
    simp only [exists_allOk_iff, same]
  cases left : allOk outcomes with
  | ok found =>
    obtain ⟨found', right⟩ := agree.mp ⟨found, left⟩
    rw [right]
    refine congrArg some (blind found found' fun a => ?_)
    have member := same (.ok a)
    rw [allOk_eq_ok_iff.mp left, allOk_eq_ok_iff.mp right] at member
    simpa using member
  | error e =>
    cases right : allOk others with
    | ok found =>
      obtain ⟨_, good⟩ := agree.mpr ⟨found, right⟩
      rw [left] at good
      contradiction
    | error e' => rfl

/-- The parts of a list that have an image, next to their images. -/
theorem forall₂_filterMap {α β : Type} (f : α → Option β) (l : List α) :
    List.Forall₂ (fun a b => f a = some b) (l.filter fun a => (f a).isSome) (l.filterMap f) := by
  induction l with
  | nil => exact .nil
  | cons a l ih =>
    cases image : f a with
    | none => simpa [image] using ih
    | some b => simpa [image] using ih

end TypeRecovery
