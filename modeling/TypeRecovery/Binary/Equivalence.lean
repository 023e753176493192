import TypeRecovery.Binary.TypeTable

/-! Structural equality of types, whatever their identifiers: two types are equivalent when no
pair of types reached from them along the same references differs. -/
namespace TypeRecovery

/-- Corresponding references: both absent, or both present. -/
def pairRefs : Option NodeId → Option NodeId → Option (List (NodeId × NodeId))
  | some a, some b => some [(a, b)]
  | none, none => some []
  | _, _ => none

def pairParams : List (Option NodeId) → List (Option NodeId) → Option (List (NodeId × NodeId))
  | [], [] => some []
  | a :: as, b :: bs => do return (← pairRefs a b) ++ (← pairParams as bs)
  | _, _ => none

def pairFields : List (Nat × NodeId) → List (Nat × NodeId) → Option (List (NodeId × NodeId))
  | [], [] => some []
  | (i, a) :: as, (j, b) :: bs => if i = j then (pairFields as bs).map ((a, b) :: ·) else none
  | _, _ => none

/-- The pairs that remain to be compared if two nodes agree in themselves. -/
def TypeNode.pairs? : TypeNode → TypeNode → Option (List (NodeId × NodeId))
  | void, void => some []
  | bool, bool => some []
  | char m, char n => if m = n then some [] else none
  | int m s, int n t => if m = n ∧ s = t then some [] else none
  | float m, float n => if m = n then some [] else none
  | unknown m, unknown n => if m = n then some [] else none
  | pointer a, pointer b => pairRefs a b
  | array a m, array b n => if m = n then some [(a, b)] else none
  | struct m as, struct n bs => if m = n then pairFields as bs else none
  | function r as, function s bs => do return (← pairRefs r s) ++ (← pairParams as bs)
  | _, _ => none

namespace TypeTable

def pairsWith (s t : TypeTable) : List (NodeId × NodeId) :=
  s.keys.flatMap fun a => t.keys.map fun b => (a, b)

/-- Compares the pairs of a list and all they lead to; pairs not in `unmet` were met before. -/
def agree (s t : TypeTable) (unmet todo : List (NodeId × NodeId)) : Bool :=
  match todo with
  | [] => true
  | (a, b) :: todo =>
    match s.get? a, t.get? b with
    | some x, some y =>
      if _ : (a, b) ∈ unmet then
        match x.pairs? y with
        | some pairs => agree s t (unmet.erase (a, b)) (pairs ++ todo)
        | none => false
      else agree s t unmet todo
    | _, _ => false
termination_by (unmet.length, todo.length)
decreasing_by
  · exact .left _ _ (length_erase_lt ‹_›)
  · exact .right _ (by simp)

def equivalent (s : TypeTable) (a : NodeId) (t : TypeTable) (b : NodeId) : Bool :=
  s.agree t (s.pairsWith t) [(a, b)]

end TypeTable
end TypeRecovery
