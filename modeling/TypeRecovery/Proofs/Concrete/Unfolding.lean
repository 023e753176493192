import TypeRecovery.Proofs.Concrete.Arenas

/-! Types as trees. A handle of an arena stands for the tree that is met when references are
followed from it, and an arena that grows keeps its trees. -/
namespace TypeRecovery

/-- A node that no longer says what it refers to. -/
def Concrete.bare : Concrete → Concrete
  | pointer _ size => pointer none size
  | array _ length => array none length
  | struct name size fields => struct name size (fields.map fun field => ⟨field.offset, none⟩)
  | function _ _ => function none []
  | union name _ => union name []
  | node => node

/-- A type written out in full: a bare node with a part for each of its references, in their order. -/
inductive TypeTree where
  | node (bare : Concrete) (parts : List (Option TypeTree))

namespace TypeTree

instance : Inhabited TypeTree := ⟨.node .void []⟩

def pointer (target : TypeTree) (size : Nat) : TypeTree := node (.pointer none size) [some target]

def struct (size : Nat) (fields : List (Nat × TypeTree)) : TypeTree :=
  node (.struct none size (fields.map fun field => ⟨field.1, none⟩))
    (fields.map fun field => some field.2)

def function (ret : Option TypeTree) (params : List (Option TypeTree)) : TypeTree :=
  node (.function none []) (ret :: params)

end TypeTree

theorem map_snd_eq {α β : Type} {left right : List (Option (α × β))}
    (first : left.map (Option.map Prod.fst) = right.map (Option.map Prod.fst))
    (second : ∀ x y z, some (x, y) ∈ left → some (x, z) ∈ right → y = z) :
    left.map (Option.map Prod.snd) = right.map (Option.map Prod.snd) := by
  induction left generalizing right with
  | nil =>
    obtain rfl := List.map_eq_nil_iff.mp first.symm
    rfl
  | cons cell left ih =>
    obtain ⟨cell', right, rfl, head, tail⟩ := List.map_eq_cons_iff.mp first.symm
    rw [List.map_cons, List.map_cons, ih tail.symm fun x y z here there =>
      second x y z (List.mem_cons_of_mem _ here) (List.mem_cons_of_mem _ there)]
    congr 1
    cases cell with
    | none => rw [Option.map_eq_none_iff.mp head]
    | some pair =>
      obtain ⟨⟨x, z⟩, rfl, same⟩ := Option.map_eq_some_iff.mp head
      obtain rfl : x = pair.1 := same
      exact congrArg some (second pair.1 pair.2 z List.mem_cons_self List.mem_cons_self)

namespace Arena
variable {a b : Arena} {h : Handle} {node : Concrete} {tree other : TypeTree}
variable {refs refs' : List (Option Handle)} {parts parts' : List (Option TypeTree)}

/-- Following the references from a handle gives a finite tree. -/
inductive Unfolds (a : Arena) : Handle → TypeTree → Prop where
  | node {h : Handle} {node : Concrete} {cells : List (Option (Handle × TypeTree))}
    (found : a.get? h = some node) (refs : node.refs = cells.map (Option.map Prod.fst))
    (inner : ∀ r tree, some (r, tree) ∈ cells → Unfolds a r tree) :
    Unfolds a h (.node node.bare (cells.map (Option.map Prod.snd)))

theorem Unfolds.mono (extended : a.Extends b) (unfolds : a.Unfolds h tree) : b.Unfolds h tree := by
  induction unfolds with
  | node found refs _ ih => exact .node (extended _ _ found) refs ih

theorem Unfolds.unique (first : a.Unfolds h tree) (second : a.Unfolds h other) : tree = other := by
  induction first generalizing other with
  | node found refs _ ih =>
    cases second with
    | node found' refs' inner =>
      obtain rfl := Option.some.inj (found.symm.trans found')
      rw [map_snd_eq (refs.symm.trans refs') fun r tree other here there =>
        ih r tree here (inner r other there)]

def Parts (a : Arena) (refs : List (Option Handle)) (parts : List (Option TypeTree)) : Prop :=
  ∃ cells : List (Option (Handle × TypeTree)), refs = cells.map (Option.map Prod.fst) ∧
    parts = cells.map (Option.map Prod.snd) ∧ ∀ r tree, some (r, tree) ∈ cells → a.Unfolds r tree

theorem parts_nil : a.Parts [] [] := ⟨[], rfl, rfl, by simp⟩

theorem parts_absent : a.Parts [none] [none] := ⟨[none], rfl, rfl, by simp⟩

theorem Unfolds.single (unfolds : a.Unfolds h tree) : a.Parts [some h] [some tree] := by
  refine ⟨[some (h, tree)], rfl, rfl, ?_⟩
  intro r other inside
  obtain ⟨rfl, rfl⟩ := Prod.mk.inj (Option.some.inj (List.mem_singleton.mp inside))
  exact unfolds

theorem Parts.mono (extended : a.Extends b) (given : a.Parts refs parts) : b.Parts refs parts := by
  obtain ⟨cells, left, right, inner⟩ := given
  exact ⟨cells, left, right, fun r tree inside => (inner r tree inside).mono extended⟩

theorem Parts.append (first : a.Parts refs parts) (second : a.Parts refs' parts') :
    a.Parts (refs ++ refs') (parts ++ parts') := by
  obtain ⟨cells, rfl, rfl, inner⟩ := first
  obtain ⟨cells', rfl, rfl, inner'⟩ := second
  refine ⟨cells ++ cells', by simp, by simp, ?_⟩
  intro r tree inside
  rcases List.mem_append.mp inside with here | there
  · exact inner r tree here
  · exact inner' r tree there

theorem Parts.unfolds (node : Concrete) (found : a.get? h = some node)
    (given : a.Parts node.refs parts) : a.Unfolds h (.node node.bare parts) := by
  obtain ⟨cells, refs, rfl, inner⟩ := given
  exact .node found refs inner

theorem Parts.push (node : Concrete) (given : a.Parts node.refs parts) :
    (a.push node).1.Unfolds (a.push node).2 (.node node.bare parts) :=
  (given.mono push_extends).unfolds node push_self

theorem Unfolds.push_pointer (unfolds : a.Unfolds h tree) (size : Nat) :
    (a.push (.pointer (some h) size)).1.Unfolds (a.push (.pointer (some h) size)).2
      (.pointer tree size) :=
  Parts.push (.pointer (some h) size) unfolds.single

/-- Nothing that an arena has before counts for the type of an interval. -/
theorem pushBounds_unfolds (sealedTypes : SealedTypes) (lower upper : TypeVar) (size : Nat) :
    ∃ tree, ∀ arena : Arena, (arena.pushBounds sealedTypes lower upper size).1.Unfolds
      (arena.pushBounds sealedTypes lower upper size).2 tree := by
  have leaf (node : Concrete) (closed : node.refs = []) :
      ∃ tree, ∀ arena : Arena, (arena.push node).1.Unfolds (arena.push node).2 tree :=
    ⟨.node node.bare [], fun arena => Parts.push node (closed ▸ parts_nil)⟩
  have wrapping (inner bare : Concrete) (outer : Handle → Concrete) (closed : inner.refs = [])
      (only : ∀ h, (outer h).refs = [some h]) (same : ∀ h, (outer h).bare = bare) :
      ∃ tree, ∀ arena : Arena,
        ((arena.push inner).1.push (outer (arena.push inner).2)).1.Unfolds
          ((arena.push inner).1.push (outer (arena.push inner).2)).2 tree := by
    obtain ⟨tree, below⟩ := leaf inner closed
    refine ⟨.node bare [some tree], fun arena => ?_⟩
    rw [← same (arena.push inner).2]
    exact Parts.push _ (only _ ▸ (below arena).single)
  have bytes := wrapping (.char 1) _ (fun h => .array (some h) size) rfl (fun _ => rfl) fun _ => rfl
  unfold pushBounds
  cases (sealedTypes.get? lower).or (sealedTypes.get? upper) with
  | some origin =>
    exact wrapping (.sealed origin) _ (fun h => .pointer (some h) size) rfl (fun _ => rfl)
      fun _ => rfl
  | none =>
    cases (decisiveBound lower upper).ground? with
    | none => exact bytes
    | some g =>
      cases g with
      | bottom | top => exact bytes
      | code =>
        exact wrapping .void _ (fun h => .function (some h) []) rfl (fun _ => rfl) fun _ => rfl
      | str =>
        exact wrapping (.char 1) _ (fun h => .pointer (some h) size) rfl (fun _ => rfl) fun _ => rfl
      | _ => exact leaf _ rfl

end Arena
end TypeRecovery
