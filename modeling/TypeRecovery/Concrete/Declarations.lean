import TypeRecovery.Concrete.Naming

/-! The text of inferred types: a line for each variable, then a definition for each structure
and union they reach. -/
namespace TypeRecovery

namespace Inferred

def reached (inferred : Inferred) : List (Handle × Concrete) :=
  (reach inferred.arena.refs (List.range inferred.arena.size) inferred.roots.values).filterMap
    fun h => (inferred.arena.get? h).map fun node => (h, node)

end Inferred

namespace Naming

def nameOr (s : Naming) (absent : String) (h : Option Handle) : String :=
  (h.bind s.get?).getD absent

/-- The line of a variable: a prototype for a function, a remark for anything else. -/
def rootLine (s : Naming) (arena : Arena) (root : TypeVar) (h : Handle) : String :=
  match arena.get? h with
  | some (.function ret params) =>
    s.nameOr "void" ret ++ " " ++ root.text ++ "("
      ++ ", ".intercalate (params.map (s.nameOr "undefined")) ++ ");\n"
  | _ => "// " ++ root.text ++ " : " ++ s.nameOr "undefined" (some h) ++ "\n"

def block (keyword name : String) (members : List String) : String :=
  "\n" ++ keyword ++ " " ++ name ++ " \x7b\n" ++ String.join members ++ "\x7d;\n"

def definition? (s : Naming) (h : Handle) : Concrete → Option String
  | .struct _ _ fields => some <| block "struct" (s.nameOr "undefined" (some h)) <|
      fields.map fun field =>
        "  " ++ s.nameOr "undefined" field.type ++ " field_" ++ Nat.repr field.offset ++ ";\n"
  | .union _ members => some <| block "union" (s.nameOr "undefined" (some h)) <|
      members.mapIdx fun i member =>
        "  " ++ s.nameOr "undefined" member ++ " alt_" ++ Nat.repr i ++ ";\n"
  | _ => none

end Naming

def Inferred.rootLines (inferred : Inferred) (s : Naming) : List String :=
  inferred.roots.entries.map fun entry => s.rootLine inferred.arena entry.1 entry.2

def Inferred.definitions (inferred : Inferred) (s : Naming) : List String :=
  inferred.reached.filterMap fun entry => s.definition? entry.1 entry.2

def Inferred.declarations (inferred : Inferred) (s : Naming) : String :=
  String.join (inferred.rootLines s) ++ String.join (inferred.definitions s)

def Inferred.text (inferred : Inferred) : String :=
  inferred.declarations (Naming.ofInferred inferred)

end TypeRecovery
