import TypeRecovery.Proofs.Ordered
import TypeRecovery.Sketch.Shape

/-! Arenas as they are built: every node refers to nodes that are there before it, and nothing that
is there changes. -/
namespace TypeRecovery

def SealedTypes.Marks (sealedTypes : SealedTypes) (origin : NodeId) : Prop :=
  ∃ atom, sealedTypes.get? atom = some origin

namespace Arena

/-- All nodes of an arena are nodes of another, at the same handles. -/
def Extends (a b : Arena) : Prop := ∀ h node, a.get? h = some node → b.get? h = some node

/-- Nodes refer to earlier nodes only, none is a union, and what is sealed is allowed to be. -/
def Grounded (allowed : NodeId → Prop) (a : Arena) : Prop :=
  ∀ h node, a.get? h = some node → (∀ name members, node ≠ .union name members) ∧
    (∀ r, some r ∈ node.refs → r < h) ∧ ∀ origin, node = .sealed origin → allowed origin

variable {a b c : Arena} {h : Handle} {node : Concrete} {allowed : NodeId → Prop}

theorem Extends.refl (a : Arena) : a.Extends a := fun _ _ found => found

theorem Extends.trans (first : a.Extends b) (second : b.Extends c) : a.Extends c :=
  fun h node found => second h node (first h node found)

theorem lt_size_iff : h < a.size ↔ ∃ node, a.get? h = some node := by
  simp only [size, get?, Array.getElem?_eq_some_iff]
  constructor
  · exact fun bound => ⟨_, bound, rfl⟩
  · exact fun ⟨_, bound, _⟩ => bound

theorem Extends.size_le (extended : a.Extends b) : a.size ≤ b.size := by
  cases count : a.size with
  | zero => exact Nat.zero_le _
  | succ last =>
    obtain ⟨node, found⟩ := lt_size_iff.mp (show last < a.size by omega)
    exact lt_size_iff.mpr ⟨node, extended _ _ found⟩

theorem push_get? : (a.push node).1.get? h = if h = a.size then some node else a.get? h := by
  simp only [push, get?, size]
  exact Array.getElem?_push

theorem push_extends : a.Extends (a.push node).1 := by
  intro h other found
  have bound : h < a.size := lt_size_iff.mpr ⟨other, found⟩
  rw [push_get?, if_neg (Nat.ne_of_lt bound), found]

theorem push_self : (a.push node).1.get? (a.push node).2 = some node := by
  rw [push_get?]
  exact if_pos rfl

theorem Grounded.push (grounded : a.Grounded allowed)
    (plain : ∀ name members, node ≠ .union name members)
    (backward : ∀ r, some r ∈ node.refs → r < a.size)
    (permitted : ∀ origin, node = .sealed origin → allowed origin) :
    (a.push node).1.Grounded allowed := by
  intro h other found
  rw [push_get?] at found
  split at found
  next here =>
    obtain rfl := Option.some.inj found
    exact ⟨plain, fun r inside => here ▸ backward r inside, permitted⟩
  next => exact grounded h other found

private theorem grounded_empty : ({} : Arena).Grounded allowed := by
  intro h node found
  simp [get?] at found

/-- Work that adds nodes to an arena and refers to one of them, or to none. -/
structure Builds (allowed : NodeId → Prop) (a b : Arena) (ref : Option Handle) : Prop where
  extended : a.Extends b
  grounded : a.Grounded allowed → b.Grounded allowed
  inside : ∀ h, ref = some h → h < b.size

private theorem builds_push (a : Arena) (node : Concrete)
    (plain : ∀ name members, node ≠ .union name members)
    (backward : ∀ r, some r ∈ node.refs → r < a.size)
    (permitted : ∀ origin, node = .sealed origin → allowed origin) :
    Builds allowed a (a.push node).1 (some (a.push node).2) where
  extended := push_extends
  grounded grounded := grounded.push plain backward permitted
  inside h same := by
    obtain rfl := Option.some.inj same
    exact lt_size_iff.mpr ⟨node, push_self⟩

theorem Builds.trans {ref other : Option Handle} (first : Builds allowed a b ref)
    (second : Builds allowed b c other) : Builds allowed a c other where
  extended := first.extended.trans second.extended
  grounded grounded := second.grounded (first.grounded grounded)
  inside := second.inside

theorem Builds.push (built : Builds allowed a b (some h)) (node : Concrete)
    (plain : ∀ name members, node ≠ .union name members)
    (only : ∀ r, some r ∈ node.refs → r = h) (unsealed : ∀ origin, node ≠ .sealed origin) :
    Builds allowed a (b.push node).1 (some (b.push node).2) := by
  apply built.trans
  apply builds_push b node plain
  · intro r inside
    exact only r inside ▸ built.inside h rfl
  · intro origin same
    exact absurd same (unsealed origin)

private theorem concrete?_builds {size : Nat} {g : Ground}
    (made : g.concrete? a size = some (b, node)) :
    Builds allowed a (b.push node).1 (some (b.push node).2) := by
  have leaf {node : Concrete} (plain : ∀ name members, node ≠ .union name members)
      (empty : node.refs = []) (unsealed : ∀ origin, node ≠ .sealed origin) :
      Builds allowed a (a.push node).1 (some (a.push node).2) :=
    builds_push a node plain (by simp [empty]) fun origin same => absurd same (unsealed origin)
  cases g with
  | bottom | top => simp [Ground.concrete?] at made
  | code =>
    obtain ⟨rfl, rfl⟩ := Prod.mk.inj (Option.some.inj made)
    refine (leaf (by simp) rfl (by simp)).push _ (by simp) (fun r inside => ?_) (by simp)
    simpa [Concrete.refs, Arena.push] using inside
  | str =>
    obtain ⟨rfl, rfl⟩ := Prod.mk.inj (Option.some.inj made)
    refine (leaf (by simp) rfl (by simp)).push _ (by simp) (fun r inside => ?_) (by simp)
    simpa [Concrete.refs, Arena.push] using inside
  | _ =>
    obtain ⟨rfl, rfl⟩ := Prod.mk.inj (Option.some.inj made)
    exact leaf (by simp) rfl (by simp)

private theorem pushBounds_builds (arena : Arena) (sealedTypes : SealedTypes)
    (lower upper : TypeVar)
    (size : Nat) : Builds sealedTypes.Marks arena
      (arena.pushBounds sealedTypes lower upper size).1
      (some (arena.pushBounds sealedTypes lower upper size).2) := by
  have after (first second : Concrete) (plain : ∀ name members, first ≠ .union name members)
      (plain' : ∀ name members, second ≠ .union name members) (empty : first.refs = [])
      (only : second.refs = [some (arena.push first).2])
      (permitted : ∀ origin, first = .sealed origin → sealedTypes.Marks origin)
      (unsealed : ∀ origin, second ≠ .sealed origin) :
      Builds sealedTypes.Marks arena ((arena.push first).1.push second).1
        (some ((arena.push first).1.push second).2) := by
    refine (builds_push arena first plain (by simp [empty]) permitted).push second plain'
      (fun r inside => ?_) unsealed
    rw [only] at inside
    simpa using inside
  unfold pushBounds
  split
  next origin found =>
    refine after (.sealed origin) (.pointer _ size) (by simp) (by simp) rfl rfl ?_ (by simp)
    intro other same
    obtain rfl := Concrete.sealed.inj same
    rcases Option.or_eq_some_iff.mp found with lower | ⟨_, upper⟩
    · exact ⟨_, lower⟩
    · exact ⟨_, upper⟩
  next =>
    split
    next grown node made =>
      obtain ⟨g, _, made⟩ := Option.bind_eq_some_iff.mp made
      exact concrete?_builds made
    next =>
      exact after (.char 1) (.array _ size) (by simp) (by simp) rfl rfl (by simp) (by simp)

end Arena

mutual

private theorem Shape.push_builds (target : Target) (arena : Arena) (size : Nat) : ∀ shape : Shape,
    Arena.Builds target.sealedTypes.Marks arena (shape.push target arena size).1
      (some (shape.push target arena size).2)
  | .atom bounds => arena.pushBounds_builds target.sealedTypes bounds.lower bounds.upper size
  | .pointer size pointee =>
    (Shape.push_builds target arena size pointee).push _ (by simp) (fun r inside => by
      simpa [Concrete.refs] using inside) (by simp)
  | .record _ fields => by
    obtain ⟨built, inside⟩ := Shape.pushFields_builds target arena fields
    refine Arena.Builds.push (built.trans (Arena.builds_push _ _ (by simp) ?_ (by simp))) _ (by simp)
      (fun r inside => ?_) (by simp)
    · intro r listed
      obtain ⟨field, member, same⟩ := List.mem_map.mp listed
      exact inside field member r same
    · simpa [Concrete.refs, Arena.push] using inside

theorem Shape.pushFields_builds (target : Target) (arena : Arena) :
    ∀ fields : List (Nat × Nat × Shape),
    Arena.Builds target.sealedTypes.Marks arena (Shape.pushFields target arena fields).1 none ∧
      ∀ field ∈ (Shape.pushFields target arena fields).2, ∀ h, field.type = some h →
        h < (Shape.pushFields target arena fields).1.size
  | [] => ⟨⟨.refl arena, id, by simp⟩, by simp [Shape.pushFields]⟩
  | (offset, size, shape) :: fields => by
    have first := Shape.push_builds target arena size shape
    obtain ⟨rest, inside⟩ := Shape.pushFields_builds target
      (shape.push target arena size).1 fields
    refine ⟨first.trans rest, ?_⟩
    intro field listed h same
    rcases List.mem_cons.mp listed with rfl | later
    · exact Nat.lt_of_lt_of_le (first.inside h same) rest.extended.size_le
    · exact inside field later h same

end

namespace Signature

private theorem pushOption_builds (target : Target) (arena : Arena) (shape : Option Shape) :
    Arena.Builds target.sealedTypes.Marks arena (pushOption target arena shape).1
      (pushOption target arena shape).2 := by
  cases shape with
  | none => exact ⟨.refl arena, id, by simp [pushOption]⟩
  | some shape => exact Shape.push_builds target arena target.registerSize shape

theorem pushParams_builds (target : Target) (arena : Arena) (params : List (Option Shape)) :
    Arena.Builds target.sealedTypes.Marks arena (pushParams target arena params).1 none ∧
      ∀ h, some h ∈ (pushParams target arena params).2 →
        h < (pushParams target arena params).1.size := by
  induction params generalizing arena with
  | nil => exact ⟨⟨.refl arena, id, by simp⟩, by simp [pushParams]⟩
  | cons param params ih =>
    have first := pushOption_builds target arena param
    obtain ⟨rest, inside⟩ := ih (pushOption target arena param).1
    refine ⟨first.trans rest, ?_⟩
    intro h listed
    rcases List.mem_cons.mp listed with here | later
    · exact Nat.lt_of_lt_of_le (first.inside h here.symm) rest.extended.size_le
    · exact inside h later

private theorem push_builds (target : Target) (arena : Arena) (signature : Signature) :
    Arena.Builds target.sealedTypes.Marks arena (signature.push target arena).1
      (some (signature.push target arena).2) := by
  have ret := pushOption_builds target arena signature.ret
  obtain ⟨params, inside⟩ :=
    pushParams_builds target (pushOption target arena signature.ret).1 signature.params
  refine (ret.trans params).trans (Arena.builds_push _ _ (by simp) ?_ (by simp))
  intro r listed
  rcases List.mem_cons.mp listed with here | later
  · exact Nat.lt_of_lt_of_le (ret.inside r here.symm) params.extended.size_le
  · exact inside r later

end Signature

namespace Sketches

/-- What holds of each type when it is put into the arena, and stays true as the arena grows, holds
of all types in the end. -/
theorem infer_roots {holds : TypeVar → Arena → Handle → Prop} {sketches : Sketches}
    {target : Target}
    (stable : ∀ v a b h, a.Extends b → holds v a h → holds v b h)
    (each : ∀ entry ∈ sketches.signatures, ∀ arena, holds entry.1
      (entry.2.push target arena).1 (entry.2.push target arena).2) :
    (sketches.infer target).arena.Grounded target.sealedTypes.Marks ∧
      (∀ v h, (sketches.infer target).roots.get? v = some h →
        h < (sketches.infer target).arena.size ∧ holds v (sketches.infer target).arena h) ∧
      ∀ v, (sketches.infer target).roots.contains v ↔ ∃ entry ∈ sketches.signatures, entry.1 = v := by
  have all (entries : List (TypeVar × Signature))
      (each : ∀ entry ∈ entries, ∀ arena, holds entry.1
        (entry.2.push target arena).1 (entry.2.push target arena).2) (start : Inferred)
      (grounded : start.arena.Grounded target.sealedTypes.Marks)
      (good : ∀ v h, start.roots.get? v = some h → h < start.arena.size ∧ holds v start.arena h) :
      let result := entries.foldl (fun inferred entry =>
        (⟨(entry.2.push target inferred.arena).1,
          inferred.roots.insert entry.1 (entry.2.push target inferred.arena).2⟩ : Inferred)) start
      result.arena.Grounded target.sealedTypes.Marks ∧
        (∀ v h, result.roots.get? v = some h → h < result.arena.size ∧ holds v result.arena h) ∧
        ∀ v, result.roots.contains v ↔ start.roots.contains v ∨ ∃ entry ∈ entries, entry.1 = v := by
    induction entries generalizing start with
    | nil => exact ⟨grounded, good, by simp⟩
    | cons entry rest ih =>
      have built := entry.2.push_builds target start.arena
      obtain ⟨grounded', good', keys⟩ := ih (fun e inside => each e (List.mem_cons_of_mem _ inside))
        ⟨(entry.2.push target start.arena).1,
          start.roots.insert entry.1 (entry.2.push target start.arena).2⟩
        (built.grounded grounded) (by
          intro v h found
          rw [OrdMap.get?_insert] at found
          split at found
          next same =>
            obtain rfl := Option.some.inj found
            exact ⟨built.inside _ rfl, same ▸ each entry List.mem_cons_self start.arena⟩
          next =>
            obtain ⟨inside, before⟩ := good v h found
            exact ⟨Nat.lt_of_lt_of_le inside built.extended.size_le,
              stable _ _ _ _ built.extended before⟩)
      refine ⟨grounded', good', fun v => (keys v).trans ?_⟩
      rw [OrdMap.contains, OrdMap.get?_insert]
      simp only [List.mem_cons, exists_eq_or_imp]
      by_cases here : v = entry.1
      · simp [here]
      · simp [here, Ne.symm here, OrdMap.contains]
  obtain ⟨grounded, good, keys⟩ := all sketches.signatures each {} Arena.grounded_empty
    (fun v h found => by simp at found)
  refine ⟨grounded, good, fun v => (keys v).trans ?_⟩
  simp [OrdMap.contains]

end Sketches
end TypeRecovery
