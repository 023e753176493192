import TypeRecovery.Inventory
import TypeRecovery.Notice

/-! External names for the types that inferred variables reach. Structures and unions without a
name of their own are numbered in the order in which they are met. -/
namespace TypeRecovery

structure Naming where
  names : OrdMap Handle String := ∅
  issued : Nat := 0
  notices : List Notice := []

namespace Naming

def get? (s : Naming) (h : Handle) : Option String := s.names.get? h

def record (s : Naming) (h : Handle) (name : String) : Naming :=
  { s with names := s.names.insert h name }

def pick (s : Naming) : Option String → String × Naming
  | some name => (name, s)
  | none => ("t" ++ Nat.repr (s.issued + 1), { s with issued := s.issued + 1 })

/-- The name of a type that is met again before its own name is settled. -/
def provisional (s : Naming) : Concrete → String
  | .pointer (some target) _ =>
    match s.get? target with
    | some name => name ++ "*"
    | none => "void"
  | _ => "void"

def visitRef (go : Naming → Handle → String × Naming) (absent : String) (s : Naming) :
    Option Handle → String × Naming
  | some h => go s h
  | none => (absent, s)

def visitAll (go : Naming → Handle → String × Naming) (s : Naming) : List (Option Handle) → Naming
  | [] => s
  | ref :: rest => visitAll go (visitRef go "undefined" s ref).2 rest

/-- Names a node, with `go` for what it refers to. An aggregate has its name before its parts are
named, all else after. -/
def visitNode (go : Naming → Handle → String × Naming) (s : Naming) (h : Handle) :
    Concrete → String × Naming
  | .pointer target _ =>
    let (name, s) := visitRef go "void" s target
    (name ++ "*", s.record h (name ++ "*"))
  | .array member length =>
    let (name, s) := visitRef go "undefined" s member
    let name := name ++ "[" ++ Nat.repr length ++ "]"
    (name, s.record h name)
  | .struct name _ fields =>
    let (name, s) := s.pick name
    (name, visitAll go (s.record h name) (fields.map Field.type))
  | .union name members =>
    let (name, s) := s.pick name
    (name, visitAll go (s.record h name) members)
  | .function ret params => ("code", (visitAll go s (ret :: params)).record h "code")
  | scalar =>
    let name := scalar.scalarName?.getD scalar.kind
    (name, s.record h name)

/-- Names the type at `h` and all it reaches. The types whose names are not being worked out
are `idle`. -/
def visit (arena : Arena) (idle : List Handle) (s : Naming) (h : Handle) : String × Naming :=
  match s.get? h with
  | some name => (name, s)
  | none =>
    match arena.get? h with
    | none => ("undefined", { s with notices := s.notices ++ [.danglingConcrete h] })
    | some node =>
      if _ : h ∈ idle then visitNode (visit arena (idle.erase h)) s h node
      else (s.provisional node, s)
termination_by idle.length
decreasing_by exact length_erase_lt ‹_›

def ofInferred (inferred : Inferred) : Naming :=
  inferred.roots.values.foldl
    (fun s h => (visit inferred.arena (List.range inferred.arena.size) s h).2) {}

end Naming
end TypeRecovery
