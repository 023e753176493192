import TypeRecovery.Binary.Basic
import TypeRecovery.Outcomes
import TypeRecovery.Rules.Relations

/-! What the rules say: constraints for functions, and comments on addresses. -/
namespace TypeRecovery

namespace Relations

def constraintRelation : String := "subtype_constraint"

def commentRelation : String := "comment"

/-- A row of a function, a constraint and at least one more column. -/
def constraintOf (row : List String) : Except Error (String × Constraint) :=
  match row with
  | function :: text :: _ :: _ =>
    match Constraint.ofText text with
    | .ok c => .ok (function, c)
    | .error e => .error (.malformedConstraint e)
  | _ => .error (.malformedRow constraintRelation row)

def constraintNotices (row : List String) : List Notice :=
  match row with
  | function :: text :: _ :: _ =>
    match Constraint.ofText text with
    | .ok _ => []
    | .error _ => [.badConstraint function text]
  | _ => []

def constraints (rows : List (List String)) : Except Error (OrdMap String ConstraintSet) :=
  (allOk (rows.map constraintOf)).map fun found =>
    found.foldl (fun all entry => all.modifyD entry.1 ∅ fun set => set.insert entry.2) ∅

/-- Marks without a value stand for a plain letter. -/
def fillMarks : List Char → List Char
  | '?' :: '?' :: rest => 's' :: fillMarks rest
  | c :: rest => c :: fillMarks rest
  | [] => []

/-- A row of an address, a text, its category and perhaps more. Rows for address zero or of other
categories say nothing. -/
def commentOf (categories row : List String) : Except Error (Option (Nat × String)) :=
  match row with
  | address :: text :: category :: _ =>
    if address = "0" ∨ category ∉ categories then .ok none
    else
      match Text.word? address.toList with
      | some value => .ok (some (value.toNat, String.ofList (fillMarks text.toList)))
      | none => .error (.malformedRow commentRelation row)
  | _ => .error (.malformedRow commentRelation row)

def commentTexts (m : CodeModule) (found : List (Nat × String)) :
    OrdMap Position (OrdSet String) :=
  found.foldl (fun all entry =>
    match m.locate? entry.1 with
    | some position => all.modifyD position ∅ fun set => set.insert entry.2
    | none => all) ∅

def commentNotices (m : CodeModule) (outcomes : List (Except Error (Option (Nat × String)))) :
    List Notice :=
  ((untilFailure outcomes).filterMap id).flatMap fun entry => m.locateNotices entry.1

def commentText (texts : OrdSet String) : String := "\n# ".intercalate texts.toList

def comments (m : CodeModule) (outcomes : List (Except Error (Option (Nat × String)))) :
    Except Error (OrdMap Position String) :=
  (allOk outcomes).map fun found =>
    (commentTexts m (found.filterMap id)).mapValues fun _ texts => commentText texts

end Relations
end TypeRecovery
