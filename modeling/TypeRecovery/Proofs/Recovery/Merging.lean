import TypeRecovery.Proofs.Prototype.Functions
import TypeRecovery.Proofs.Stateful
import TypeRecovery.Recovery

/-! Constraints that the rules found, merged with those that prototypes tell. Constraints are kept by
name, and functions of one name meet at the same place: within a module only the last of them
counts, and where prototypes override, only the last of all modules. -/
namespace TypeRecovery

def CodeModule.tellings (m : CodeModule) (name : String) : List ConstraintSet :=
  OrdMap.valuesAt name (m.prototypes.keys.filterMap m.told?)

theorem CodeModule.readPrototypes_get? {m : CodeModule} {all : OrdMap String ConstraintSet}
    {s : Reading} (read : m.readPrototypes {} = .ok all s) (name : String) :
    all.get? name = (m.tellings name).getLast? := by
  rw [readPrototypes_eq read, OrdMap.get?_ofList_eq]
  rfl

def Binary.tellings (b : Binary) (name : String) : List ConstraintSet :=
  b.modules.flatMap fun m => m.tellings name

private theorem getLast?_flatMap {α β : Type} (l : List α) (f : α → List β) :
    (l.flatMap f).getLast? = (l.filterMap fun a => (f a).getLast?).getLast? := by
  induction l with
  | nil => rfl
  | cons a rest ih =>
    rw [List.flatMap_cons, List.getLast?_append, ih, List.filterMap_cons]
    cases (f a).getLast? with
    | none => rw [Option.or_none]
    | some b =>
      rw [List.getLast?_cons, Option.or_some]

theorem flatMap_eq_nil_iff_filterMap {α β : Type} {l : List α} {f : α → List β} :
    l.flatMap f = [] ↔ l.filterMap (fun a => (f a).getLast?) = [] := by
  rw [← List.getLast?_eq_none_iff, ← List.getLast?_eq_none_iff, getLast?_flatMap]

private theorem getLast?_of_length_le_one {α : Type} {l : List α} {a : α} (short : l.length ≤ 1)
    (inside : a ∈ l) : l.getLast? = some a := by
  have full := List.length_pos_of_mem inside
  obtain ⟨b, rfl⟩ := List.length_eq_one_iff.mp (Nat.le_antisymm short full)
  rw [List.mem_singleton.mp inside]
  rfl

/-- What becomes of the constraints of a name when others are told. -/
def Settings.combine (settings : Settings) (found : Option ConstraintSet) (told : ConstraintSet) :
    ConstraintSet :=
  match found with
  | none => told
  | some found => if settings.annotationsOverride then told else found.union told

namespace Recovery
variable {settings : Settings} {r t : Recovery}

private theorem mergeFunction_eq (settings : Settings) (all : OrdMap String ConstraintSet)
    (entry : String × ConstraintSet) : mergeFunction settings all entry =
      all.insert entry.1 (settings.combine (all.get? entry.1) entry.2) := by
  unfold mergeFunction Settings.combine
  cases all.get? entry.1 with
  | none => rfl
  | some found =>
    dsimp only
    split <;> rfl

theorem mergeFunctions_get? (all : OrdMap String ConstraintSet)
    (entries : List (String × ConstraintSet)) (distinct : (entries.map Prod.fst).Nodup)
    (name : String) : (entries.foldl (mergeFunction settings) all).get? name =
      (OrdMap.valuesAt name entries).getLast?.elim (all.get? name) fun told =>
        some (settings.combine (all.get? name) told) := by
  induction entries generalizing all with
  | nil => rfl
  | cons entry rest ih =>
    obtain ⟨apart, distinct⟩ := List.nodup_cons.mp distinct
    rw [List.foldl_cons, ih _ distinct, mergeFunction_eq, OrdMap.get?_insert]
    by_cases here : entry.1 = name
    · have none : OrdMap.valuesAt name rest = [] := by
        apply List.eq_nil_iff_forall_not_mem.mpr
        intro told listed
        exact apart (here ▸ List.mem_map_of_mem (OrdMap.mem_valuesAt.mp listed))
      have first : OrdMap.valuesAt name (entry :: rest) = entry.2 :: OrdMap.valuesAt name rest :=
        List.filterMap_cons_some (if_pos here)
      rw [first, none, if_pos here.symm, here]
      rfl
    · have first : OrdMap.valuesAt name (entry :: rest) = OrdMap.valuesAt name rest :=
        List.filterMap_cons_none (if_neg here)
      rw [first, if_neg (Ne.symm here)]

theorem readModule_ok {m : CodeModule} {annotations : OrdMap String ConstraintSet}
    {sealedTypes : SealedTypes} (read : readModule m r = .ok (annotations, sealedTypes) t) :
    ∃ s, m.readPrototypes {} = .ok annotations s ∧ sealedTypes = s.sealedTypes := by
  unfold readModule at read
  cases outcome : m.readPrototypes {} with
  | ok all s =>
    rw [outcome] at read
    obtain ⟨_, _, _, read⟩ := bind_eq_ok read
    obtain ⟨same, rfl⟩ := pure_eq_ok read
    obtain ⟨rfl, rfl⟩ := Prod.mk.inj same
    exact ⟨s, rfl, rfl⟩
  | error e s =>
    rw [outcome] at read
    obtain ⟨_, _, _, read⟩ := bind_eq_ok read
    contradiction

/-- Modules are merged one after the other, each by the last of its functions of a name. -/
theorem mergeModules_get? {modules : List CodeModule} {all merged : OrdMap String ConstraintSet}
    {found sealedTypes : SealedTypes}
    (done : mergeModules settings all found modules r = .ok (merged, sealedTypes) t)
    (name : String) : merged.get? name =
      (modules.filterMap fun m => (m.tellings name).getLast?).foldl
        (fun before told => some (settings.combine before told)) (all.get? name) := by
  induction modules generalizing all found r with
  | nil =>
    obtain ⟨same, _⟩ := pure_eq_ok done
    rw [(Prod.mk.inj same).1]
    rfl
  | cons m rest ih =>
    obtain ⟨⟨annotations, own⟩, u, first, done⟩ := bind_eq_ok done
    obtain ⟨_, _, _, later⟩ := bind_eq_ok done
    obtain ⟨s, read, _⟩ := readModule_ok first
    have last : (OrdMap.valuesAt name annotations.entries).getLast? = (m.tellings name).getLast? := by
      rw [← CodeModule.readPrototypes_get? read, ← OrdMap.get?_ofList_eq, OrdMap.ofList_entries]
    rw [ih later, mergeFunctions_get? _ _ (OrdMap.nodup_keys annotations), last,
      List.filterMap_cons]
    cases (m.tellings name).getLast? with
    | none => rfl
    | some set => rfl

theorem readAnnotations_ok {generated merged : OrdMap String ConstraintSet}
    (enabled : settings.readAnnotations = true)
    (done : readAnnotations settings generated r = .ok merged t) :
    ∃ found u, mergeModules settings generated ∅ r.binary.modules r = .ok (merged, found) u ∧
      t.sealedTypes = found ∧ t.binary = u.binary ∧ t.supply = u.supply ∧
      t.lattice = .extend {} found.keys := by
  unfold readAnnotations at done
  rw [enabled] at done
  obtain ⟨state, u, got, done⟩ := bind_eq_ok done
  obtain ⟨rfl, rfl⟩ := EStateM.Result.ok.inj got
  obtain ⟨⟨result, found⟩, u, worked, done⟩ := bind_eq_ok done
  obtain ⟨_, v, noted, done⟩ := bind_eq_ok done
  obtain ⟨-, rfl⟩ := EStateM.Result.ok.inj noted
  obtain ⟨_, w, changed, done⟩ := bind_eq_ok done
  obtain ⟨-, rfl⟩ := EStateM.Result.ok.inj changed
  obtain ⟨rfl, rfl⟩ := pure_eq_ok done
  exact ⟨found, u, worked, rfl, rfl, rfl, rfl⟩

section
variable {start : Option ConstraintSet} {told : List ConstraintSet}

private theorem combine_override (override : settings.annotationsOverride = true) :
    told.foldl (fun before set => some (settings.combine before set)) start =
      told.getLast?.or start := by
  induction told generalizing start with
  | nil => rfl
  | cons set rest ih =>
    have combined : settings.combine start set = set := by
      unfold Settings.combine
      rw [override]
      cases start <;> rfl
    rw [List.foldl_cons, ih, combined, List.getLast?_cons, Option.or_some, Option.some_or]

private theorem combine_unite (unite : settings.annotationsOverride = false)
    (some_told : told ≠ []) :
    ∃ set, told.foldl (fun before set => some (settings.combine before set)) start = some set ∧
      ∀ c, c ∈ set ↔ (∃ found, start = some found ∧ c ∈ found) ∨ ∃ part ∈ told, c ∈ part := by
  induction told generalizing start with
  | nil => contradiction
  | cons part rest ih =>
    have first (c : Constraint) : c ∈ settings.combine start part ↔
        (∃ found, start = some found ∧ c ∈ found) ∨ c ∈ part := by
      unfold Settings.combine
      rw [unite]
      cases start with
      | none => simp
      | some found => simp
    rw [List.foldl_cons]
    by_cases last : rest = []
    · subst last
      refine ⟨_, rfl, fun c => ?_⟩
      rw [first]
      simp
    · obtain ⟨set, folded, members⟩ := @ih (some (settings.combine start part)) last
      refine ⟨set, folded, fun c => ?_⟩
      rw [members]
      simp only [Option.some.injEq, exists_eq_left', first, List.mem_cons, exists_eq_or_imp, or_assoc]

end

section
variable {generated merged : OrdMap String ConstraintSet} (enabled : settings.readAnnotations = true)
  (done : readAnnotations settings generated r = .ok merged t) (name : String)
include enabled done

theorem readAnnotations_get? : merged.get? name =
    (r.binary.modules.filterMap fun m => (m.tellings name).getLast?).foldl
      (fun before told => some (settings.combine before told)) (generated.get? name) := by
  obtain ⟨found, u, worked, -⟩ := readAnnotations_ok enabled done
  exact mergeModules_get? worked name

theorem readAnnotations_get?_override (override : settings.annotationsOverride = true) :
    merged.get? name = (r.binary.tellings name).getLast?.or (generated.get? name) := by
  rw [readAnnotations_get? enabled done, combine_override override, Binary.tellings,
    getLast?_flatMap]

theorem readAnnotations_get?_unite (unite : settings.annotationsOverride = false)
    (told : r.binary.tellings name ≠ []) :
    ∃ set, merged.get? name = some set ∧ ∀ c, c ∈ set ↔
      (∃ found, generated.get? name = some found ∧ c ∈ found) ∨
      ∃ m ∈ r.binary.modules, ∃ last, (m.tellings name).getLast? = some last ∧ c ∈ last := by
  rw [Binary.tellings, Ne, flatMap_eq_nil_iff_filterMap] at told
  obtain ⟨set, folded, members⟩ := combine_unite unite told
  refine ⟨set, (readAnnotations_get? enabled done name).trans folded, fun c => ?_⟩
  rw [members]
  apply or_congr_right
  simp only [List.mem_filterMap]
  constructor
  · intro given
    obtain ⟨part, ⟨m, listed, last⟩, inside⟩ := given
    exact ⟨m, listed, part, last, inside⟩
  · intro given
    obtain ⟨m, listed, part, last, inside⟩ := given
    exact ⟨part, ⟨m, listed, last⟩, inside⟩

end

/-- The constraints of a name after the prototypes have been read. A name that no function tells of
keeps what the rules found. Where prototypes override, the last function of the name replaces the
rules and all other functions; otherwise the last one of each module is united with the rules.
Nothing that is told gets lost where no function of the name comes after another one, in the same
module or, when overriding, in any. -/
theorem readAnnotations_merges {generated merged : OrdMap String ConstraintSet}
    (enabled : settings.readAnnotations = true)
    (done : readAnnotations settings generated r = .ok merged t) (name : String) :
    (r.binary.tellings name = [] → merged.get? name = generated.get? name) ∧
    (settings.annotationsOverride = true → ∀ last, (r.binary.tellings name).getLast? = some last →
      merged.get? name = some last) ∧
    (settings.annotationsOverride = false → r.binary.tellings name ≠ [] →
      ∃ set, merged.get? name = some set ∧ ∀ c, c ∈ set ↔
        (∃ found, generated.get? name = some found ∧ c ∈ found) ∨
        ∃ m ∈ r.binary.modules, ∃ last, (m.tellings name).getLast? = some last ∧ c ∈ last) ∧
    (r.binary.tellings name ≠ [] →
      (if settings.annotationsOverride then (r.binary.tellings name).length ≤ 1
        else ∀ m ∈ r.binary.modules, (m.tellings name).length ≤ 1) →
      ∃ set, merged.get? name = some set ∧ ∀ c, c ∈ set ↔
        (settings.annotationsOverride = false ∧
          ∃ found, generated.get? name = some found ∧ c ∈ found) ∨
        ∃ told ∈ r.binary.tellings name, c ∈ told) := by
  refine ⟨?_, ?_, readAnnotations_get?_unite enabled done name, ?_⟩
  · intro silent
    have none := flatMap_eq_nil_iff_filterMap.mp silent
    rw [readAnnotations_get? enabled done, none]
    rfl
  · intro override last told
    rw [readAnnotations_get?_override enabled done name override, told]
    rfl
  · intro told single
    cases override : settings.annotationsOverride with
    | true =>
      rw [override, if_pos rfl] at single
      obtain ⟨set, only⟩ : ∃ set, r.binary.tellings name = [set] :=
        List.length_eq_one_iff.mp (Nat.le_antisymm single (List.length_pos_iff.mpr told))
      refine ⟨set, ?_, fun c => ?_⟩
      · rw [readAnnotations_get?_override enabled done name override, only]
        rfl
      · simp [only]
    | false =>
      rw [override, if_neg Bool.false_ne_true] at single
      obtain ⟨set, given, members⟩ := readAnnotations_get?_unite enabled done name override told
      refine ⟨set, given, fun c => ?_⟩
      have all : (∃ m ∈ r.binary.modules, ∃ last, (m.tellings name).getLast? = some last ∧ c ∈ last) ↔
          ∃ told ∈ r.binary.tellings name, c ∈ told := by
        simp only [Binary.tellings, List.mem_flatMap]
        constructor
        · intro last
          obtain ⟨m, listed, set, last, inside⟩ := last
          exact ⟨set, ⟨m, listed, List.mem_of_getLast? last⟩, inside⟩
        · intro told
          obtain ⟨set, ⟨m, listed, told⟩, inside⟩ := told
          exact ⟨m, listed, set, getLast?_of_length_le_one (single m listed) told, inside⟩
      rw [members, all]
      simp

/-- Two modules with a function of one name each: a number is the first argument of one function and
the second argument of the other. -/
def namesakes : Recovery :=
  let one : CodeModule := {
    name := "one"
    isa := .x64
    functions := [⟨⟨1⟩, ["f"], ∅, ∅⟩]
    types := OrdMap.ofList [(⟨2⟩, .int 4 true), (⟨3⟩, .function none [some ⟨2⟩])]
    prototypes := OrdMap.ofList [(⟨1⟩, ⟨3⟩)] }
  let other : CodeModule := {
    name := "other"
    isa := .x64
    functions := [⟨⟨4⟩, ["f"], ∅, ∅⟩]
    types := OrdMap.ofList [(⟨5⟩, .float 8), (⟨6⟩, .function none [none, some ⟨5⟩])]
    prototypes := OrdMap.ofList [(⟨4⟩, ⟨6⟩)] }
  start ⟨[one, other], []⟩ ⟨7⟩ false

def namesakeNumber : Constraint := ⟨⟨"f", [.input 0]⟩, ⟨"int32", []⟩⟩

private theorem namesakes_tellings : namesakes.binary.tellings "f" =
    [OrdSet.ofList [namesakeNumber], OrdSet.ofList [⟨⟨"f", [.input 1]⟩, ⟨"float64", []⟩⟩]] := by
  decide +kernel

theorem readAnnotations_merges_namesakes : ∃ merged t set,
    readAnnotations { annotationsOverride := false } ∅ namesakes = .ok merged t ∧
    merged.get? "f" = some set ∧
    ∀ c, c ∈ set ↔ ∃ told ∈ namesakes.binary.tellings "f", c ∈ told := by
  obtain ⟨merged, t, done⟩ := exists_eq_ok
    (show succeeds (readAnnotations { annotationsOverride := false } ∅ namesakes) by decide +kernel)
  obtain ⟨-, -, -, single⟩ := readAnnotations_merges rfl done "f"
  have short : ∀ m ∈ namesakes.binary.modules, (m.tellings "f").length ≤ 1 := by decide +kernel
  obtain ⟨set, given, members⟩ := single (by rw [namesakes_tellings]; simp) short
  refine ⟨merged, t, set, done, given, fun c => ?_⟩
  rw [members]
  simp

/-- Where prototypes override, the number that the first module tells of is lost. -/
theorem readAnnotations_loses_namesake : ∃ merged t set,
    readAnnotations {} ∅ namesakes = .ok merged t ∧ merged.get? "f" = some set ∧
    (∃ told ∈ namesakes.binary.tellings "f", namesakeNumber ∈ told) ∧ namesakeNumber ∉ set := by
  obtain ⟨merged, t, done⟩ := exists_eq_ok
    (show succeeds (readAnnotations {} ∅ namesakes) by decide +kernel)
  have given := readAnnotations_get?_override rfl done "f" rfl
  rw [namesakes_tellings] at given
  refine ⟨merged, t, _, done, given, ?_, by decide⟩
  rw [namesakes_tellings]
  exact ⟨_, List.mem_cons_self, by decide⟩

end Recovery
end TypeRecovery
