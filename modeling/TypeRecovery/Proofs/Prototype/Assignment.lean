import TypeRecovery.Proofs.Prototype.Copies
import TypeRecovery.Proofs.Prototype.Grammar

/-! Which function gets which of the recorded types as its prototype. A type goes to the function
that its variable is named after, and no variable but the name itself has the text of a name. Of
functions with one name, only the last one gets the type: the others are left without a
prototype. -/
namespace TypeRecovery

namespace CodeModule
variable {m : CodeModule} {f g : Routine} {name : String} {id : NodeId}

def LastNamed (m : CodeModule) (f : Routine) : Prop :=
  ∃ before after, m.functions = before ++ f :: after ∧
    ∀ g ∈ after, m.functionName g ≠ m.functionName f

private theorem LastNamed.mem (last : m.LastNamed f) : f ∈ m.functions := by
  obtain ⟨before, after, split, _⟩ := last
  simp [split]

theorem functionsByName_eq_some_iff : (Recorder.functionsByName m).get? name = some id ↔
    ∃ f, m.LastNamed f ∧ m.functionName f = name ∧ f.id = id := by
  simp only [Recorder.functionsByName, OrdMap.get?_ofList_eq, OrdMap.valuesAt, List.filterMap_map,
    List.getLast?_filterMap, List.findSome?_eq_some_iff, Function.comp_apply,
    Option.ite_none_right_eq_some, Option.some.injEq, List.reverse_eq_append_iff,
    List.reverse_cons, List.append_assoc, List.singleton_append, ite_eq_right_iff, reduceCtorEq]
  constructor
  · intro given
    obtain ⟨after, f, before, split, ⟨named, same⟩, none⟩ := given
    refine ⟨f, ⟨before.reverse, after.reverse, split, fun g inside => ?_⟩, named, same⟩
    rw [named]
    exact none g (List.mem_reverse.mp inside)
  · intro given
    obtain ⟨f, ⟨before, after, split, none⟩, named, same⟩ := given
    refine ⟨after.reverse, f, before.reverse, by simp [split], ⟨named, same⟩, fun g inside => ?_⟩
    exact named ▸ none g (List.mem_reverse.mp inside)

/-- A name has no full stop, so that only the variable without a path has its text. -/
theorem text_eq_functionName_iff {v : TypeVar} :
    v.text = m.functionName f ↔ v = ⟨m.functionName f, []⟩ := by
  constructor
  · intro same
    obtain ⟨base, path⟩ := v
    cases path with
    | nil => exact congrArg (TypeVar.mk · []) same
    | cons label rest =>
      have dotted : '.' ∈ (TypeVar.mk base (label :: rest)).text.toList := by
        rw [TypeVar.toList_text]
        simp
      rw [same] at dotted
      exact absurd dotted (functionName_undotted m f)
  · intro same
    rw [same]
    rfl

private theorem eq_of_id_eq (ids : (m.functions.map Routine.id).Nodup) (first : f ∈ m.functions)
    (second : g ∈ m.functions) (same : f.id = g.id) : f = g :=
  List.inj_on_of_nodup_map ids first second same

end CodeModule

namespace Recorder
variable {arena : Arena} {functions : OrdMap String NodeId} {m : CodeModule} {s t : Recording}

/-- Roots are recorded one after the other, and each has become a type. Nothing but notices is added
in between. -/
inductive Becomes (arena : Arena) :
    List (TypeVar × Handle) → List (TypeVar × NodeId) → Recording → Recording → Prop where
  | nil (s : Recording) : Becomes arena [] [] s s
  | cons {v : TypeVar} {h : Handle} {type : NodeId} {roots : List (TypeVar × Handle)}
    {typed : List (TypeVar × NodeId)} {s t u : Recording} (notices : List Notice)
    (first : record arena h s = .ok type t)
    (rest : Becomes arena roots typed { t with notices := notices } u) :
    Becomes arena ((v, h) :: roots) ((v, type) :: typed) s u

theorem Becomes.map_fst {roots : List (TypeVar × Handle)} {typed : List (TypeVar × NodeId)}
    (becomes : Becomes arena roots typed s t) : typed.map Prod.fst = roots.map Prod.fst := by
  induction becomes with
  | nil => rfl
  | cons notices first rest ih => rw [List.map_cons, List.map_cons, ih]

def assign (functions : OrdMap String NodeId) (typed : List (TypeVar × NodeId)) :
    List (NodeId × NodeId) :=
  typed.filterMap fun root => (functions.get? root.1.text).map fun function => (function, root.2)

private theorem becomes_of_recordRoots {prototypes result : OrdMap NodeId NodeId}
    {roots : List (TypeVar × Handle)}
    (done : recordRoots arena functions prototypes roots s = .ok result t) :
    ∃ typed, Becomes arena roots typed s t ∧
      result = prototypes.insertAll (assign functions typed) := by
  induction roots generalizing prototypes s with
  | nil =>
    obtain ⟨rfl, rfl⟩ := pure_eq_ok done
    exact ⟨[], .nil t, rfl⟩
  | cons root rest ih =>
    obtain ⟨v, h⟩ := root
    obtain ⟨type, u, notices, first, later⟩ := recordRoots_cons done
    obtain ⟨typed, becomes, rfl⟩ := ih later
    refine ⟨(v, type) :: typed, .cons notices first becomes, ?_⟩
    rw [← OrdMap.insertAll_append, assign, assign, List.filterMap_cons]
    cases functions.get? v.text <;> rfl

theorem mem_assign {typed : List (TypeVar × NodeId)} {function type : NodeId} :
    (function, type) ∈ assign (functionsByName m) typed ↔ ∃ f root, m.LastNamed f ∧
      f.id = function ∧ root.text = m.functionName f ∧ (root, type) ∈ typed := by
  simp only [assign, List.mem_filterMap, Option.map_eq_some_iff, Prod.mk.injEq,
    CodeModule.functionsByName_eq_some_iff]
  constructor
  · intro given
    obtain ⟨root, listed, _, ⟨f, last, named, rfl⟩, rfl, rfl⟩ := given
    exact ⟨f, root.1, last, rfl, named.symm, listed⟩
  · intro given
    obtain ⟨f, root, last, rfl, named, listed⟩ := given
    exact ⟨(root, type), listed, f.id, ⟨f, last, named.symm, rfl⟩, rfl, rfl⟩

theorem nodup_assign (ids : (m.functions.map Routine.id).Nodup) {typed : List (TypeVar × NodeId)}
    (distinct : (typed.map Prod.fst).Nodup) :
    ((assign (functionsByName m) typed).map Prod.fst).Nodup := by
  rw [List.Nodup, List.pairwise_map, assign, List.pairwise_filterMap]
  apply (List.pairwise_map.mp distinct).imp
  intro root other apart entry made entry' made' same
  obtain ⟨_, found, rfl⟩ := Option.map_eq_some_iff.mp made
  obtain ⟨_, found', rfl⟩ := Option.map_eq_some_iff.mp made'
  obtain ⟨f, last, named, rfl⟩ := CodeModule.functionsByName_eq_some_iff.mp found
  obtain ⟨g, last', named', rfl⟩ := CodeModule.functionsByName_eq_some_iff.mp found'
  obtain rfl := CodeModule.eq_of_id_eq ids last.mem last'.mem same
  -- Both roots are the name itself, since a root with a path has another text.
  have first := CodeModule.text_eq_functionName_iff.mp named.symm
  have second := CodeModule.text_eq_functionName_iff.mp named'.symm
  exact apart (first.trans second.symm)

/-- A function has the type that a root of its name has become as its prototype, but only if no
function after it has the same name. There are no other prototypes. -/
theorem recordInferred_assigns {inferred : Inferred}
    (ids : (s.target.functions.map Routine.id).Nodup)
    (done : recordInferred inferred s = .ok () t) :
    ∃ typed u, Becomes inferred.arena inferred.roots.entries typed s u ∧
      t = { u with target := { u.target with prototypes := t.target.prototypes } } ∧
      (∀ f ∈ s.target.functions, ∀ type, t.target.prototypes.get? f.id = some type ↔
        s.target.LastNamed f ∧ ∃ root, root.text = s.target.functionName f ∧ (root, type) ∈ typed) ∧
      ∀ id, t.target.prototypes.contains id → ∃ f ∈ s.target.functions, f.id = id := by
  obtain ⟨_, _, state, done⟩ := bind_eq_ok done
  obtain ⟨rfl, rfl⟩ := EStateM.Result.ok.inj state
  obtain ⟨prototypes, u, recorded, done⟩ := bind_eq_ok done
  obtain ⟨-, rfl⟩ := EStateM.Result.ok.inj done
  obtain ⟨typed, becomes, rfl⟩ := becomes_of_recordRoots recorded
  have distinct : (typed.map Prod.fst).Nodup := by
    rw [becomes.map_fst]
    exact OrdMap.nodup_keys inferred.roots
  have entries (id type : NodeId) :
      (OrdMap.ofList (assign (functionsByName s.target) typed)).get? id = some type ↔ _ :=
    (OrdMap.get?_ofList _ (nodup_assign ids distinct) id type).trans mem_assign
  refine ⟨typed, u, becomes, rfl, ?_, ?_⟩
  · intro f listed type
    refine (entries f.id type).trans ⟨?_, ?_⟩
    · intro given
      obtain ⟨g, root, last, same, named, inside⟩ := given
      obtain rfl := CodeModule.eq_of_id_eq ids last.mem listed same
      exact ⟨last, root, named, inside⟩
    · intro given
      obtain ⟨last, root, named, inside⟩ := given
      exact ⟨f, root, last, rfl, named, inside⟩
  · intro id present
    obtain ⟨type, found⟩ := (OrdMap.contains_iff _ _).mp present
    obtain ⟨g, root, last, same, -⟩ := (entries id type).mp found
    exact ⟨g, last.mem, same⟩

/-- Two functions of one name, and one that is named after its address. -/
def helpers : CodeModule where
  name := "helpers"
  isa := .x64
  codeBlocks := OrdMap.ofList [(⟨4⟩, ⟨4096, 16, []⟩)]
  functions := [⟨⟨1⟩, ["helper"], ∅, ∅⟩, ⟨⟨2⟩, ["helper"], ∅, ∅⟩,
    ⟨⟨3⟩, ["copy@2.14"], OrdSet.ofList [⟨4⟩], ∅⟩]

def helperTypes : Inferred where
  arena := ⟨#[.int 4 true, .function (some 0) [some 0], .function none [some 0]]⟩
  roots := OrdMap.ofList [(⟨"FUN_4096", []⟩, 2), (⟨"helper", []⟩, 1)]

private theorem recordInferred_helpers : ∃ t,
    recordInferred helperTypes { target := helpers, supply := ⟨5⟩ } = .ok () t ∧
      t.target.prototypes = OrdMap.ofList [(⟨2⟩, ⟨8⟩), (⟨3⟩, ⟨5⟩)] := by
  have outcome : (match recordInferred helperTypes { target := helpers, supply := ⟨5⟩ } with
      | .ok _ t => decide (t.target.prototypes = OrdMap.ofList [(⟨2⟩, ⟨8⟩), (⟨3⟩, ⟨5⟩)])
      | .error _ _ => false) = true := by decide +kernel
  cases done : recordInferred helperTypes { target := helpers, supply := ⟨5⟩ } with
  | ok _ t => exact ⟨t, rfl, by simpa only [done, decide_eq_true_eq] using outcome⟩
  | error e t => simp only [done, Bool.false_eq_true] at outcome

theorem recordInferred_assigns_helpers : ∃ t typed u,
    recordInferred helperTypes { target := helpers, supply := ⟨5⟩ } = .ok () t ∧
    Becomes helperTypes.arena helperTypes.roots.entries typed
      { target := helpers, supply := ⟨5⟩ } u ∧
    (∃ root, root.text = "helper" ∧ (root, ⟨8⟩) ∈ typed) ∧
    ∃ root, root.text = "FUN_4096" ∧ (root, ⟨5⟩) ∈ typed := by
  obtain ⟨t, done, prototypes⟩ := recordInferred_helpers
  obtain ⟨typed, u, becomes, -, assigned, -⟩ := recordInferred_assigns
    (s := { target := helpers, supply := ⟨5⟩ }) (by decide) done
  rw [prototypes] at assigned
  refine ⟨t, typed, u, done, becomes, ?_, ?_⟩
  · exact ((assigned ⟨⟨2⟩, ["helper"], ∅, ∅⟩ (by decide) ⟨8⟩).mp rfl).2
  · exact ((assigned ⟨⟨3⟩, ["copy@2.14"], OrdSet.ofList [⟨4⟩], ∅⟩ (by decide) ⟨5⟩).mp rfl).2

/-- The first of two functions of a name gets no prototype, though there is a type for the name. -/
theorem recordInferred_forgets_namesake : ∃ t, ∃ f ∈ helpers.functions, ∃ root h,
    recordInferred helperTypes { target := helpers, supply := ⟨5⟩ } = .ok () t ∧
    helperTypes.roots.get? root = some h ∧ root.text = helpers.functionName f ∧
    t.target.prototypes.get? f.id = none := by
  obtain ⟨t, done, prototypes⟩ := recordInferred_helpers
  refine ⟨t, ⟨⟨1⟩, ["helper"], ∅, ∅⟩, by decide, ⟨"helper", []⟩, 1, done, by decide, by decide, ?_⟩
  rw [prototypes]
  decide

end Recorder
end TypeRecovery
