import TypeRecovery.Proofs.Lattice.Extension
import TypeRecovery.Proofs.Sketch.Encodings

/-! Types inferred from the prototypes of a module and nothing else. The constraints read from the
prototypes are a problem whose solution has a sketch for each of them, and the types put into the
arena for the sketches encode the prototypes. -/
namespace TypeRecovery

namespace Reading

theorem sealedTypes_get? {s : Reading} {v : TypeVar} {p : NodeId} :
    s.sealedTypes.get? v = some p ↔ p ∈ s.sealedPointers ∧ v = sealedAtom p := by
  have distinct : ((s.sealedPointers.toList.map fun p => (sealedAtom p, p)).map Prod.fst).Nodup := by
    rw [List.map_map]
    apply (OrdSet.nodup s.sealedPointers).map
    intro p q same
    exact sealedAtom_injective same
  rw [sealedTypes, OrdMap.get?_ofList _ distinct, List.mem_map]
  constructor
  · intro listed
    obtain ⟨q, inside, same⟩ := listed
    obtain ⟨rfl, rfl⟩ := Prod.mk.inj same
    exact ⟨inside, rfl⟩
  · intro listed
    exact ⟨p, listed.1, by rw [listed.2]⟩

private theorem sealedTypes_keyed (s : Reading) : SealedTypes.Keyed s.sealedTypes := by
  intro v p found
  exact (sealedTypes_get?.mp found).2

end Reading

theorem AtomLattice.contains_extend {atoms : List TypeVar} {v : TypeVar} :
    (extend {} atoms).contains v ↔ v.ground?.isSome ∨ v ∈ atoms := by
  have members : v ∈ (extend {} atoms).sealedAtoms ↔ v ∈ atoms ∧ v.ground? = none :=
    mem_sealedAtoms_extend.trans (or_iff_right OrdSet.not_mem_empty)
  rw [contains, Bool.or_eq_true, decide_eq_true_eq, members]
  cases v.ground? with
  | none => simp
  | some g => simp

theorem Arena.Grounded.mono {a : Arena} {allowed wider : NodeId → Prop}
    (grounded : a.Grounded allowed) (wide : ∀ origin, allowed origin → wider origin) :
    a.Grounded wider := by
  intro h node found
  obtain ⟨plain, backward, permitted⟩ := grounded h node found
  exact ⟨plain, backward, fun origin same => wide origin (permitted origin same)⟩

/-- The nodes from a handle on are those of the prototype of the function that a variable names. -/
def Arena.Shows (arena : Arena) (m : CodeModule) (words : WordSizes) (v : TypeVar) (h : Handle) :
    Prop :=
  ∃ id type name ret params, v = ⟨name, []⟩ ∧ m.Declares words id type name ret params ∧
    arena.EncodesFunction m.types h ret params

/-- Types for just the functions of a module that have a prototype, each that of its own. -/
structure Inferred.Presents (inferred : Inferred) (m : CodeModule) (words : WordSizes) : Prop where
  grounded : inferred.arena.Grounded fun origin => m.types.contains origin
  inside : ∀ v h, inferred.roots.get? v = some h → h < inferred.arena.size
  sound : ∀ v h, inferred.roots.get? v = some h → inferred.arena.Shows m words v h
  complete : ∀ id type name ret params, m.Declares words id type name ret params →
    inferred.roots.contains ⟨name, []⟩

namespace CodeModule
variable {m : CodeModule} {words : WordSizes} {all : OrdMap String ConstraintSet} {s : Reading}

theorem Ends.atom {side : Side} {type ret last : NodeId} {name : String} {params : List NodeId}
    {w atom : TypeVar} (annotates : m.Annotates words type ret params)
    (ends : m.Ends words name ret params side w last) (tip : m.types.Tip last atom) :
    atom.ground?.isSome ∨ atom = Reading.sealedAtom last ∧ m.Encloses words name ret params last := by
  cases tip with
  | scalar found named =>
    obtain ⟨v, id, slot, leaf⟩ := ends
    have representable := (annotates.representable slot).of_leaf leaf
    have scalar := representable.scalar_of_isNamed found named
    obtain ⟨g, _, rfl, _⟩ := scalar.exists_ground named
    left
    exact Option.isSome_of_eq_some (Ground.ground?_toVar g)
  | whole whole => exact .inr ⟨rfl, side, w, ends, whole⟩

theorem Annotated.poses (annotated : m.Annotated words) (calls : CallGraph)
    (read : m.readPrototypes {} = .ok all s) :
    Problem.Poses ⟨.extend {} s.sealedTypes.keys, all, calls⟩ m words := by
  obtain ⟨all', s', read', sound, complete, sealing⟩ := annotated.readPrototypes
  rw [read] at read'
  obtain ⟨rfl, rfl⟩ := EStateM.Result.ok.inj read'
  have keys (v : TypeVar) : v ∈ s.sealedTypes.keys ↔
      ∃ p, p ∈ s.sealedPointers ∧ v = Reading.sealedAtom p := by
    rw [OrdMap.mem_keys]
    exact exists_congr fun p => Reading.sealedTypes_get?
  refine ⟨sound, complete, ?_, ?_⟩
  · intro id type name ret params side w last atom declares ends tip
    apply AtomLattice.contains_extend.mpr
    rcases ends.atom declares.annotates tip with fixed | ⟨same, encloses⟩
    · exact .inl fixed
    · have enclosed := (sealing last).mpr ⟨id, type, name, ret, params, declares, encloses⟩
      exact .inr ((keys atom).mpr ⟨last, enclosed, same⟩)
  · intro v known
    rcases AtomLattice.contains_extend.mp known with fixed | listed
    · obtain ⟨g, named⟩ := Option.isSome_iff_exists.mp fixed
      rw [TypeVar.eq_toVar_of_ground? named]
      rfl
    · obtain ⟨p, _, rfl⟩ := (keys v).mp listed
      rfl

end CodeModule

section
variable {m : CodeModule} {words : WordSizes}

private theorem Problem.Poses.shows_signatures {p : Problem} (poses : p.Poses m words)
    (annotated : m.Annotated words) (target : Target)
    (keyed : target.sealedTypes.Keyed)
    (registered : ∀ id type name ret params pointer, m.Declares words id type name ret params →
      m.Encloses words name ret params pointer →
      target.sealedTypes.get? (Reading.sealedAtom pointer) = some pointer) :
    ∀ entry ∈ p.solveByClosure.sketches.signatures, ∀ arena,
      (entry.2.push target arena).1.Shows m words entry.1 (entry.2.push target arena).2 := by
  intro entry listed arena
  obtain ⟨⟨v, sketch⟩, kept, rfl⟩ := List.mem_map.mp listed
  have found := (OrdMap.get?_eq_some_iff _ _ _).mpr (List.mem_filter.mp kept).1
  obtain ⟨name, known, rfl, rfl⟩ := Problem.sketches_get?.mp found
  obtain ⟨set, given⟩ := (OrdMap.contains_iff _ _).mp known
  obtain ⟨id, type, ret, params, declares, _⟩ := poses.sound name set given
  have outlines := poses.outlines annotated declares
  have narrow := CodeModule.pointer_le annotated.supported
  obtain ⟨shape, shapes, drawn, result, arguments⟩ := outlines.signature_eq declares.annotates narrow
    (registered id type name ret params · declares)
  refine ⟨id, type, name, ret, params, rfl, declares, ?_⟩
  exact Signature.encodes_push keyed drawn result arguments arena

/-- Solving what the prototypes say gives the prototypes back. -/
theorem CodeModule.Annotated.presents {all : OrdMap String ConstraintSet} {s : Reading}
    (annotated : m.Annotated words) (calls : CallGraph)
    (read : m.readPrototypes {} = .ok all s) :
    ((Problem.solveByClosure ⟨.extend {} s.sealedTypes.keys, all, calls⟩).sketches.infer
      ⟨s.sealedTypes, words.pointer, words.register⟩).Presents m words := by
  have poses := annotated.poses calls read
  generalize (⟨.extend {} s.sealedTypes.keys, all, calls⟩ : Problem) = p at poses
  obtain ⟨all', s', read', _, _, sealing⟩ := annotated.readPrototypes
  rw [read] at read'
  obtain ⟨rfl, rfl⟩ := EStateM.Result.ok.inj read'
  have registered (id type : NodeId) (name : String) (ret : NodeId) (params : List NodeId)
      (pointer : NodeId) (declares : m.Declares words id type name ret params)
      (encloses : m.Encloses words name ret params pointer) :
      s.sealedTypes.get? (Reading.sealedAtom pointer) = some pointer := by
    have enclosed := (sealing pointer).mpr ⟨id, type, name, ret, params, declares, encloses⟩
    exact Reading.sealedTypes_get?.mpr ⟨enclosed, rfl⟩
  have stable (v : TypeVar) (a b : Arena) (h : Handle) (extended : a.Extends b)
      (before : a.Shows m words v h) : b.Shows m words v h := by
    obtain ⟨id, type, name, ret, params, same, declares, encodes⟩ := before
    exact ⟨id, type, name, ret, params, same, declares, encodes.mono extended⟩
  have each := poses.shows_signatures annotated ⟨s.sealedTypes, words.pointer, words.register⟩
    s.sealedTypes_keyed registered
  obtain ⟨grounded, roots, keys⟩ := Sketches.infer_roots stable each
  refine ⟨grounded.mono ?_, fun v h found => (roots v h found).1,
    fun v h found => (roots v h found).2, ?_⟩
  · intro origin marked
    obtain ⟨atom, found⟩ := marked
    obtain ⟨enclosed, _⟩ := Reading.sealedTypes_get?.mp found
    obtain ⟨_, _, _, _, _, _, _, _, _, whole⟩ := (sealing origin).mp enclosed
    exact (OrdMap.contains_iff _ _).mpr whole.present
  · intro id type name ret params declares
    have known := poses.complete id type name ret params declares
    have found := Problem.sketches_get?.mpr ⟨name, known, rfl, rfl⟩
    have listed := (OrdMap.get?_eq_some_iff _ _ _).mp found
    apply (keys ⟨name, []⟩).mpr
    exact ⟨_, List.mem_map_of_mem (List.mem_filter.mpr ⟨listed, rfl⟩), rfl⟩

end
end TypeRecovery
