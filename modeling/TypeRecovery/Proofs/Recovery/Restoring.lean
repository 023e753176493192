import TypeRecovery.Proofs.Prototype.Completion
import TypeRecovery.Proofs.Prototype.Recovered
import TypeRecovery.Proofs.Recovery.Inference

/-! Types that present the prototypes of a module, recorded in that module. Recording succeeds, and
the prototypes afterwards are those from before, recorded again. -/
namespace TypeRecovery
open Relation

/-- A module with the types of another and new ones, whose prototypes are those of the same
functions, recorded again. -/
structure CodeModule.Restores (m restored : CodeModule) : Prop where
  kept : ∀ id node, m.types.get? id = some node → restored.types.get? id = some node
  keys : ∀ id, restored.prototypes.contains id ↔ m.prototypes.contains id
  recovered : ∀ id type again, m.prototypes.get? id = some type →
    restored.prototypes.get? id = some again → m.types.Recovered restored.types type again
  /-- A prototype compares as equal to the one before just if nothing that it leads to is missing. -/
  equivalent : ∀ id type again, m.prototypes.get? id = some type →
    restored.prototypes.get? id = some again →
    (m.types.equivalent type restored.types again ↔
      ∀ x, ReflTransGen m.types.Refers type x → m.types.contains x)
  only : restored = { m with
    types := restored.types, prototypes := restored.prototypes, comments := restored.comments }

namespace Inferred
variable {inferred : Inferred} {m : CodeModule} {words : WordSizes}

theorem functionsByName_get? (annotated : m.Annotated words) {id type ret : NodeId} {name : String}
    {params : List NodeId} (declares : m.Declares words id type name ret params) :
    (Recorder.functionsByName m).get? name = some id := by
  have distinct : ((m.functions.map fun f => (m.functionName f, f.id)).map Prod.fst).Nodup := by
    rw [List.map_map]
    exact annotated.names
  obtain ⟨f, inside, rfl, rfl⟩ := declares.named
  rw [Recorder.functionsByName, OrdMap.get?_ofList _ distinct]
  exact List.mem_map_of_mem inside

theorem Presents.mem_prototypes (presents : inferred.Presents m words)
    (annotated : m.Annotated words) (place : Site → NodeId) {id again : NodeId} :
    (id, again) ∈ inferred.prototypes m.types place (Recorder.functionsByName m)
        inferred.roots.entries ↔
      ∃ type name ret params h, m.Declares words id type name ret params ∧
        inferred.roots.get? ⟨name, []⟩ = some h ∧
        again = (inferred.arena.land m.types (.root ⟨name, []⟩) (some h)).id place := by
  rw [prototypes, List.mem_filterMap]
  constructor
  · intro listed
    obtain ⟨⟨v, h⟩, inside, given⟩ := listed
    have found := (OrdMap.get?_eq_some_iff _ _ _).mpr inside
    obtain ⟨id', type, name, ret, params, rfl, declares, _⟩ := presents.sound v h found
    have own : (Recorder.functionsByName m).get? (TypeVar.text ⟨name, []⟩) = some id' :=
      functionsByName_get? annotated declares
    rw [own] at given
    obtain ⟨rfl, rfl⟩ := Prod.mk.inj (Option.some.inj given)
    exact ⟨type, name, ret, params, h, declares, found, rfl⟩
  · intro given
    obtain ⟨type, name, ret, params, h, declares, found, rfl⟩ := given
    refine ⟨(⟨name, []⟩, h), (OrdMap.get?_eq_some_iff _ _ _).mp found, ?_⟩
    have own : (Recorder.functionsByName m).get? (TypeVar.text ⟨name, []⟩) = some id :=
      functionsByName_get? annotated declares
    rw [own]
    rfl

theorem Presents.nodup_prototypes (presents : inferred.Presents m words)
    (annotated : m.Annotated words) (place : Site → NodeId) :
    ((inferred.prototypes m.types place (Recorder.functionsByName m)
      inferred.roots.entries).map Prod.fst).Nodup := by
  have distinct := OrdMap.nodup_keys inferred.roots
  rw [OrdMap.keys, List.Nodup, List.pairwise_map] at distinct
  rw [List.Nodup, List.pairwise_map, prototypes, List.pairwise_filterMap]
  apply distinct.imp_of_mem
  intro root other inside inside' apart entry given entry' given' same
  obtain ⟨id, type, name, ret, params, named, declares, _⟩ := presents.sound root.1 root.2
    ((OrdMap.get?_eq_some_iff _ _ _).mpr inside)
  obtain ⟨id', type', name', ret', params', named', declares', _⟩ := presents.sound other.1 other.2
    ((OrdMap.get?_eq_some_iff _ _ _).mpr inside')
  have own : (Recorder.functionsByName m).get? root.1.text = some id := by
    rw [named]
    exact functionsByName_get? annotated declares
  have own' : (Recorder.functionsByName m).get? other.1.text = some id' := by
    rw [named']
    exact functionsByName_get? annotated declares'
  rw [own] at given
  rw [own'] at given'
  obtain rfl := Option.some.inj given
  obtain rfl := Option.some.inj given'
  obtain rfl : id = id' := same
  obtain ⟨_, rfl, _⟩ := annotated.declares_unique declares declares'
  exact apart (named.trans named'.symm)

private theorem Presents.recovered_root {types : TypeTable} {place : Site → NodeId} {h : Handle}
    {id type ret : NodeId} {name : String} {params : List NodeId}
    (presents : inferred.Presents m words) (annotated : m.Annotated words)
    (kept : ∀ id node, m.types.get? id = some node → types.get? id = some node)
    (filled : ∀ site, inferred.Needs m.types site → inferred.Fills m.types place types site)
    (declares : m.Declares words id type name ret params)
    (given : inferred.roots.get? ⟨name, []⟩ = some h) :
    m.types.Recovered types type
      ((inferred.arena.land m.types (.root ⟨name, []⟩) (some h)).id place) := by
  obtain ⟨id', type', name', ret', params', same, declares', encodes⟩ := presents.sound _ h given
  obtain rfl : name = name' := congrArg TypeVar.base same
  obtain rfl := annotated.declares_id_unique declares declares'
  obtain ⟨_, _, rfl, rfl⟩ := annotated.declares_unique declares declares'
  have declared := declares.annotates.declared
  exact recovered_of_encodesFunction kept filled encodes declared (.root given)

theorem Presents.restores (presents : inferred.Presents m words) (annotated : m.Annotated words)
    {supply : Supply} (ids : ∀ id, m.types.contains id → id.value < supply.next) :
    ∃ s, Recorder.recordInferred inferred { target := m, supply := supply } = .ok () s ∧
      m.Restores s.target := by
  obtain ⟨_, s, done⟩ := Recorder.completes_recordInferred presents.grounded presents.inside
    { target := m, supply := supply }
  refine ⟨s, done, ?_⟩
  have origins : Recorder.OriginsBelow inferred.arena supply.next := by
    intro h origin found
    exact ids origin ((presents.grounded h _ found).2.2 origin rfl)
  obtain ⟨log, t, wrote, member, rfl⟩ := Recorder.recordInferred_wrote ids origins done
  have kept (id : NodeId) (node : TypeNode) (found : m.types.get? id = some node) :
      t.target.types.get? id = some node := by
    have below := ids id ((OrdMap.contains_iff _ _).mpr ⟨node, found⟩)
    rw [wrote.logged.kept id below, found]
  have filled (site : Site) (needed : inferred.Needs m.types site) :
      inferred.Fills m.types (Site.placeIn supply.next log) t.target.types site :=
    wrote.filled site ((member site).mp needed)
  have recorded (id again : NodeId) := (OrdMap.get?_ofList _
    (presents.nodup_prototypes annotated (Site.placeIn supply.next log)) id again).trans
      (presents.mem_prototypes annotated _)
  have recovered (id type again : NodeId) (before : m.prototypes.get? id = some type)
      (after : (OrdMap.ofList (inferred.prototypes m.types (Site.placeIn supply.next log)
        (Recorder.functionsByName m) inferred.roots.entries)).get? id = some again) :
      m.types.Recovered t.target.types type again := by
    obtain ⟨type', name, ret, params, h, declares, given, rfl⟩ := (recorded id again).mp after
    obtain rfl : type = type' := Option.some.inj (before.symm.trans declares.recorded)
    exact presents.recovered_root annotated kept filled declares given
  refine ⟨kept, ?_, recovered, ?_, ?_⟩
  · intro id
    rw [OrdMap.contains_iff, OrdMap.contains_iff]
    constructor
    · intro after
      obtain ⟨again, after⟩ := after
      obtain ⟨type, _, _, _, _, declares, _⟩ := (recorded id again).mp after
      exact ⟨type, declares.recorded⟩
    · intro before
      obtain ⟨type, name, ret, params, declares⟩ :=
        annotated.exists_declares ((OrdMap.mem_keys _ _).mpr before)
      obtain ⟨h, given⟩ := (OrdMap.contains_iff _ _).mp (presents.complete _ _ _ _ _ declares)
      exact ⟨_, (recorded id _).mpr ⟨type, name, ret, params, h, declares, given, rfl⟩⟩
  · intro id type again before after
    exact (recovered id type again before after).equivalent_iff kept
  · have only := wrote.only
    dsimp only at only ⊢
    rw [only]

end Inferred
end TypeRecovery
