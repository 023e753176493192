import TypeRecovery.Error
import TypeRecovery.Sketch.Basic

/-! Sketches drawn as directed graphs in the `dot` language. -/
namespace TypeRecovery

structure Drawing where
  nodes : List String
  edges : List (Nat × Nat × String)
deriving DecidableEq

namespace Sketch

/-- The nodes of a frontier, then those below it, level by level down to a bounded depth. -/
def levels (s : Sketch) : Nat → List TypeVar → List TypeVar
  | 0, _ => []
  | depth + 1, frontier =>
    frontier ++ s.levels depth (frontier.flatMap fun v => (s.children v).map Prod.snd)

/-- The part of a sketch that hangs together below `v`, level by level. No level lies deeper
than there are nodes. -/
def subtree (s : Sketch) (v : TypeVar) : List TypeVar := s.levels s.nodes.size [v]

def nodeLabel (s : Sketch) (v : TypeVar) : String :=
  match s.get? v with
  | some bounds => v.text ++ " [" ++ bounds.lower.text ++ ", " ++ bounds.upper.text ++ "]"
  | none => v.text

/-- The edge into the `j`-th of the drawn variables, from the one it extends. -/
def edgeInto? (drawn : List TypeVar) (j : Nat) (v : TypeVar) : Option (Nat × Nat × String) := do
  let parent ← v.parent?
  let label ← v.lastLabel?
  let i ← drawn.findIdx? (· = parent)
  return (i, j, label.text)

def drawing (s : Sketch) (drawn : List TypeVar) : Drawing where
  nodes := drawn.map s.nodeLabel
  edges := (drawn.zipIdx.drop 1).filterMap fun entry => edgeInto? drawn entry.2 entry.1

def draw (s : Sketch) (root : TypeVar) : Except Error Drawing :=
  match s.get? root with
  | none => .error (.cannotDraw root.text)
  | some _ => .ok (s.drawing (s.subtree root))

end Sketch

namespace Drawing

def nodeLine (i : Nat) (label : String) : String :=
  "    n" ++ Nat.repr i ++ "[label=\"" ++ Text.escape label ++ "\"];\n"

def edgeLine (edge : Nat × Nat × String) : String :=
  "    n" ++ Nat.repr edge.1 ++ " -> n" ++ Nat.repr edge.2.1
    ++ "[label=\"" ++ Text.escape edge.2.2 ++ "\"];\n"

def text (d : Drawing) : String :=
  "digraph Sketch \x7b\n" ++ String.join (d.nodes.mapIdx nodeLine)
    ++ String.join (d.edges.map edgeLine) ++ "\x7d\n"

end Drawing
end TypeRecovery
