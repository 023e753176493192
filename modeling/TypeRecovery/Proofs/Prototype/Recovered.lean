import TypeRecovery.Proofs.Binary.Equivalence
import TypeRecovery.Proofs.Prototype.Copies
import TypeRecovery.Proofs.Sketch.Encodings

/-! Types recorded again. What is recorded for nodes that encode a type has the structure of that
type, down to the sealed pointers, which are those of the table itself. -/
namespace TypeRecovery
open Relation

/-- The second type is the first one recorded again: a sealed pointer is the same entry of both
tables, and all else, and nothing else, has the same structure over parts that are recorded again. -/
inductive TypeTable.Recovered (old new : TypeTable) : NodeId → NodeId → Prop where
  | kept {id : NodeId} {node : TypeNode} (whole : old.Whole id)
    (before : old.get? id = some node) (after : new.get? id = some node) :
    Recovered old new id id
  | copied {a b : NodeId} {x y : TypeNode} {pairs : List (NodeId × NodeId)} (parted : ¬ old.Whole a)
    (before : old.get? a = some x) (after : new.get? b = some y)
    (paired : x.pairs? y = some pairs)
    (inner : ∀ pair ∈ pairs, Recovered old new pair.1 pair.2) : Recovered old new a b

private theorem pairFields_eq_some {as bs : List (Nat × NodeId)}
    (aligned : as.map Prod.fst = bs.map Prod.fst) :
    pairFields as bs = some ((as.map Prod.snd).zip (bs.map Prod.snd)) := by
  induction as generalizing bs with
  | nil =>
    obtain rfl := List.map_eq_nil_iff.mp aligned.symm
    rfl
  | cons a as ih =>
    cases bs with
    | nil => contradiction
    | cons b bs =>
      have rest := ih (List.tail_eq_of_cons_eq aligned)
      have offsets : a.1 = b.1 := List.head_eq_of_cons_eq aligned
      rw [pairFields, if_pos offsets, rest]
      rfl

private theorem pairParams_eq_some {as bs : List NodeId} (aligned : as.length = bs.length) :
    pairParams (as.map some) (bs.map some) = some (as.zip bs) := by
  induction as generalizing bs with
  | nil =>
    obtain rfl := List.length_eq_zero_iff.mp aligned.symm
    rfl
  | cons a as ih =>
    cases bs with
    | nil => contradiction
    | cons b bs =>
      have rest := ih (Nat.succ.inj aligned)
      simp only [List.map_cons, pairParams, pairRefs, rest]
      rfl

namespace Arena
variable {arena : Arena} {known : TypeTable} {h : Handle} {id : NodeId}

private theorem Encodes.not_sealed (encodes : arena.Encodes known h id) (origin : NodeId) :
    arena.get? h ≠ some (.sealed origin) := by
  intro marked
  cases encodes with
  | scalar there found scalar mirrors =>
    rw [marked] at there
    obtain rfl := Option.some.inj there
    cases mirrors
  | sealed there => simp [marked] at there
  | pointer there => simp [marked] at there
  | record there => simp [marked] at there

private theorem land_of_pointer {under : Handle} {size : Nat} (known : TypeTable) (site : Site)
    (there : arena.get? h = some (.pointer (some under) size))
    (plain : ∀ origin, arena.get? under ≠ some (.sealed origin)) :
    arena.land known site (some h) = .new (.node h) := by
  have unmarked : Recorder.origin? arena known (some under) = none := by
    unfold Recorder.origin?
    split
    next origin marked => exact absurd marked (plain origin)
    next => rfl
  simp only [land, there, unmarked]

end Arena

namespace Inferred
variable {inferred : Inferred} {known types : TypeTable} {place : Site → NodeId}
variable (kept : ∀ id node, known.get? id = some node → types.get? id = some node)
variable (filled : ∀ site, inferred.Needs known site → inferred.Fills known place types site)

section
variable {site : Site} {h : Handle} {node : Concrete}
include filled

private theorem Refers.exists_copy (refers : inferred.Refers known site (some h))
    (lands : inferred.arena.land known site (some h) = .new (.node h))
    (there : inferred.arena.get? h = some node) : ∃ copy,
      node.Mirrors (inferred.parts known place h node) copy ∧
      types.get? ((inferred.arena.land known site (some h)).id place) = some copy := by
  have needed : inferred.Needs known (.node h) := ⟨site, some h, refers, lands⟩
  obtain ⟨node', copy, there', mirrors, placed⟩ := filled _ needed
  rw [there] at there'
  obtain rfl := Option.some.inj there'
  refine ⟨copy, mirrors, ?_⟩
  rw [lands]
  exact placed

private theorem Refers.pointer_copy {under : Handle} {size : Nat}
    (refers : inferred.Refers known site (some h))
    (lands : inferred.arena.land known site (some h) = .new (.node h))
    (there : inferred.arena.get? h = some (.pointer (some under) size)) :
    types.get? ((inferred.arena.land known site (some h)).id place) =
      some (.pointer (some ((inferred.arena.land known (.part h 0) (some under)).id place))) := by
  obtain ⟨copy, mirrors, placed⟩ := refers.exists_copy filled lands there
  cases mirrors
  exact placed

end

private theorem Refers.part_of_pointer {site : Site} {h under : Handle} {size : Nat}
    (refers : inferred.Refers known site (some h))
    (lands : inferred.arena.land known site (some h) = .new (.node h))
    (there : inferred.arena.get? h = some (.pointer (some under) size)) :
    inferred.Refers known (.part h 0) (some under) := .part refers lands there rfl

section
include filled

private theorem Refers.recovered_struct {site : Site} {h : Handle} {id : NodeId} {width : Nat}
    {cells : List (Nat × NodeId × Handle)} (refers : inferred.Refers known site (some h))
    (laid : inferred.arena.get? h =
      some (.struct none width (cells.map fun cell => ⟨cell.1, some cell.2.2⟩)))
    (present : known.get? id = some (.struct width (cells.map fun cell => (cell.1, cell.2.1))))
    (solid : cells ≠ [])
    (inner : ∀ cell ∈ cells, ∀ site, inferred.Refers known site (some cell.2.2) →
      known.Recovered types cell.2.1
        ((inferred.arena.land known site (some cell.2.2)).id place)) :
    known.Recovered types id ((inferred.arena.land known site (some h)).id place) := by
  have lands : inferred.arena.land known site (some h) = .new (.node h) := by
    simp only [Arena.land, laid]
  obtain ⟨copy, mirrors, placed⟩ := refers.exists_copy filled lands laid
  have typed : ((cells.map fun cell : Nat × NodeId × Handle =>
      (⟨cell.1, some cell.2.2⟩ : Field)).getLast?.bind Field.type) =
        some (cells.getLast solid).2.2 := by
    rw [List.getLast?_map, List.getLast?_eq_some_getLast solid]
    rfl
  cases mirrors with
  | cut name size untyped =>
    rw [typed] at untyped
    contradiction
  | struct name =>
    generalize ids : inferred.parts known place h
      (.struct none width (cells.map fun cell => ⟨cell.1, some cell.2.2⟩)) = parts at placed
    have size : parts.length = cells.length := by
      rw [← ids]
      simp [Inferred.parts, Concrete.refs]
    have part (i : Nat) : parts[i]? = (cells[i]?).map fun cell =>
        (inferred.arena.land known (.part h i) (some cell.2.2)).id place := by
      rw [← ids]
      simp [Inferred.parts, Concrete.refs, List.getElem?_mapIdx, Function.comp_def]
    have offsets : (cells.map fun cell => (cell.1, cell.2.1)).map Prod.fst =
        (((cells.map fun cell => (⟨cell.1, some cell.2.2⟩ : Field)).map Field.offset).zip
          parts).map Prod.fst := by
      rw [List.map_fst_zip (by simp [size])]
      simp
    have paired := pairFields_eq_some offsets
    rw [List.map_snd_zip (by simp [size])] at paired
    have parted : ¬ known.Whole id := TypeTable.not_whole present (by simp)
    apply TypeTable.Recovered.copied parted present placed ((if_pos rfl).trans paired)
    intro pair listed
    obtain ⟨i, at_i⟩ := List.mem_iff_getElem?.mp listed
    obtain ⟨left, right⟩ := List.getElem?_zip_eq_some.mp at_i
    cases found : cells[i]? with
    | none => simp [found] at left
    | some cell =>
      have below : inferred.Refers known (.part h i) (some cell.2.2) := by
        apply Refers.part refers lands laid
        simp [Concrete.refs, found]
      have first : cell.2.1 = pair.1 := by simpa [found] using left
      have second : (inferred.arena.land known (.part h i) (some cell.2.2)).id place = pair.2 := by
        simpa [part, found] using right
      rw [← first, ← second]
      exact inner cell (List.mem_of_getElem? found) (.part h i) below

end

include kept filled

/-- Nodes that encode a type are recorded as that type. The cases follow the encoding, and the
parts of a node are recorded at sites of their own. -/
theorem recovered_of_encodes {h : Handle} {id : NodeId}
    (encodes : inferred.arena.Encodes known h id) (site : Site)
    (refers : inferred.Refers known site (some h)) :
    known.Recovered types id ((inferred.arena.land known site (some h)).id place) := by
  induction encodes generalizing site with
  | @scalar h id node shown there found scalar mirrors =>
    have lands : inferred.arena.land known site (some h) = .new (.node h) := by
      cases scalar <;> cases mirrors <;> simp only [Arena.land, there]
    obtain ⟨copy, mirrors', placed⟩ := refers.exists_copy filled lands there
    have paired : node.pairs? copy = some [] := by
      cases scalar <;> cases mirrors <;> cases mirrors' <;> simp [TypeNode.pairs?]
    have parted : ¬ known.Whole id :=
      TypeTable.not_whole found fun pointee same => by cases scalar <;> contradiction
    apply TypeTable.Recovered.copied parted found placed paired
    simp
  | @sealed h mark id size there marked whole =>
    obtain ⟨node, found⟩ := whole.present
    have present : known.contains id := (OrdMap.contains_iff _ _).mpr ⟨node, found⟩
    have lands : inferred.arena.land known site (some h) = .old id := by
      simp [Arena.land, Recorder.origin?, there, marked, present]
    rw [lands]
    exact .kept whole found (kept id node found)
  | @pointer h under id target size there found parted inner ih =>
    have lands := Arena.land_of_pointer known site there inner.not_sealed
    have placed := refers.pointer_copy filled lands there
    apply TypeTable.Recovered.copied parted found placed rfl
    intro pair listed
    obtain rfl := List.mem_singleton.mp listed
    exact ih (.part h 0) (refers.part_of_pointer lands there)
  | @record h under id target size width cells there laid found parted present solid inner ih =>
    have lands := Arena.land_of_pointer known site there (by simp [laid])
    have placed := refers.pointer_copy filled lands there
    apply TypeTable.Recovered.copied parted found placed rfl
    intro pair listed
    obtain rfl := List.mem_singleton.mp listed
    have below := refers.part_of_pointer lands there
    exact below.recovered_struct filled laid present solid ih

theorem recovered_of_encodesFunction {site : Site} {h : Handle} {type ret : NodeId}
    {params : List NodeId} (encodes : inferred.arena.EncodesFunction known h ret params)
    (declared : known.get? type = some (.function (some ret) (params.map some)))
    (refers : inferred.Refers known site (some h)) :
    known.Recovered types type ((inferred.arena.land known site (some h)).id place) := by
  obtain ⟨result, handles, there, first, rest⟩ := encodes
  have lands : inferred.arena.land known site (some h) = .new (.node h) := by
    simp only [Arena.land, there]
  obtain ⟨copy, mirrors, placed⟩ := refers.exists_copy filled lands there
  generalize ids : inferred.parts known place h (.function (some result) (handles.map some)) = parts
    at mirrors
  have recorded (i : Nat) (sub : Handle) (id : NodeId)
      (inside : (some result :: handles.map some)[i]? = some (some sub))
      (encodes : inferred.arena.Encodes known sub id) :
      ∃ part, parts[i]? = some part ∧ known.Recovered types id part := by
    refine ⟨(inferred.arena.land known (.part h i) (some sub)).id place, ?_, ?_⟩
    · rw [← ids, Inferred.parts, Concrete.refs, List.getElem?_mapIdx, inside]
      rfl
    · exact recovered_of_encodes kept filled encodes _ (.part refers lands there inside)
  cases mirrors with
  | function _ _ answer args =>
    have size : params.length = args.length := by
      have total := congrArg List.length ids
      simp only [Inferred.parts, Concrete.refs, List.length_mapIdx, List.length_cons,
        List.length_map] at total
      have aligned := rest.length_eq
      omega
    have paired : (TypeNode.function (some ret) (params.map some)).pairs?
        (.function (some answer) (args.map some)) = some ((ret, answer) :: params.zip args) := by
      simp only [TypeNode.pairs?, pairRefs, pairParams_eq_some size]
      rfl
    apply TypeTable.Recovered.copied (TypeTable.not_whole declared (by simp)) declared placed paired
    intro pair listed
    rcases List.mem_cons.mp listed with here | later
    · obtain ⟨part, at_part, recovered⟩ := recorded 0 result ret rfl first
      obtain rfl : answer = part := Option.some.inj at_part
      exact here ▸ recovered
    · obtain ⟨i, at_i⟩ := List.mem_iff_getElem?.mp later
      obtain ⟨left, right⟩ := List.getElem?_zip_eq_some.mp at_i
      obtain ⟨sub, at_sub, encodes⟩ : ∃ sub, handles[i]? = some sub ∧
          inferred.arena.Encodes known sub pair.1 := by
        obtain ⟨bound, same⟩ := List.getElem?_eq_some_iff.mp left
        have bound' : i < handles.length := rest.length_eq ▸ bound
        refine ⟨handles[i], List.getElem?_eq_getElem bound', ?_⟩
        rw [← same]
        exact (List.forall₂_iff_get.mp rest).2 i bound' bound
      have inside : (some result :: handles.map some)[i + 1]? = some (some sub) := by
        simp [at_sub]
      obtain ⟨part, at_part, recovered⟩ := recorded (i + 1) sub pair.1 inside encodes
      rw [List.getElem?_cons_succ, right] at at_part
      rw [Option.some.inj at_part]
      exact recovered

end Inferred

namespace TypeTable
variable {old new : TypeTable}

/-- A type that is recorded again compares as equal just if nothing that it leads to is missing. -/
theorem Recovered.equivalent_iff {a b : NodeId} (recovered : old.Recovered new a b)
    (kept : ∀ id node, old.get? id = some node → new.get? id = some node) :
    old.equivalent a new b = true ↔ ∀ x, ReflTransGen old.Refers a x → old.contains x := by
  constructor
  · intro same
    exact equivalent_self_iff.mp (equivalent_trans same (equivalent_symm same))
  · intro complete
    apply TypeTable.equivalent_iff.mpr
    refine ⟨fun p q => ReflTransGen old.Refers a p ∧ (old.Recovered new p q ∨ p = q), ?_,
      .refl, .inl recovered⟩
    rintro p q ⟨path, related⟩
    have below {x : TypeNode} (found : old.get? p = some x) {r : NodeId} (inside : r ∈ x.refs) :
        ReflTransGen old.Refers a r := path.tail ⟨x, found, inside⟩
    have same {x : TypeNode} (found : old.get? p = some x) : x.Corresponds
        (fun p q => ReflTransGen old.Refers a p ∧ (old.Recovered new p q ∨ p = q)) x :=
      TypeNode.Corresponds.self_iff.mpr fun r inside => ⟨below found inside, .inr rfl⟩
    rcases related with recovered | rfl
    · cases recovered with
      | kept whole before after => exact ⟨_, _, before, after, same before⟩
      | @copied _ _ x y pairs parted before after paired inner =>
        have recovers : x.Corresponds (old.Recovered new) y := corresponds_of_pairs ⟨_, paired, inner⟩
        have reached : x.Corresponds (fun p q => p = q ∧ ReflTransGen old.Refers a p) x :=
          TypeNode.Corresponds.self_iff.mpr fun r inside => ⟨rfl, below before inside⟩
        refine ⟨x, y, before, after, reached.comp (fun p _ q here there => ?_) recovers⟩
        exact ⟨here.2, .inl (here.1 ▸ there)⟩
    · obtain ⟨node, found⟩ := (OrdMap.contains_iff _ _).mp (complete p path)
      exact ⟨node, node, found, kept p node found, same found⟩

end TypeTable
end TypeRecovery
