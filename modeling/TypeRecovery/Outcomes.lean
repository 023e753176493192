import TypeRecovery.Error

/-! Lists of outcomes, of which the first failure ends the work. -/
namespace TypeRecovery

def untilFailure {α : Type} : List (Except Error α) → List α
  | .ok a :: rest => a :: untilFailure rest
  | _ => []

def firstFailure? {α : Type} (outcomes : List (Except Error α)) : Option Error :=
  outcomes.findSome? fun
    | .error e => some e
    | .ok _ => none

def allOk {α : Type} (outcomes : List (Except Error α)) : Except Error (List α) :=
  match firstFailure? outcomes with
  | some e => .error e
  | none => .ok (untilFailure outcomes)

end TypeRecovery
