import TypeRecovery.Proofs.Prototype.Rereading
import TypeRecovery.Proofs.Recovery.Merging
import TypeRecovery.Proofs.Recovery.RoundTrip

/-! A second run over what a first one has written. All that the second run does before it reads
prototypes goes as in the first one, and it ends well if the prototypes can be read. -/
namespace TypeRecovery

namespace Place
variable {ν : Type} {files other : OrdMap String ν} {spot next : Spot} {place : Place}

private theorem enter_ok {name : String} (entered : spot.enter files name = .ok next) :
    spot.enter other name = .ok next := by
  cases spot with
  | home =>
    simp only [Spot.enter] at entered
    split at entered <;> contradiction
  | away names => exact entered

private theorem follow_ok {steps : List (List Char)} (led : follow files spot steps = .ok place) :
    follow other spot steps = .ok place := by
  -- The files of the folder are looked at only to tell why a path leads nowhere.
  fun_induction follow files spot steps with
  | case1 => contradiction
  | case2 spot step rest still ih =>
    rw [follow, if_pos still]
    exact ih led
  | case3 spot rest moves ih =>
    rw [follow, if_neg moves, if_pos rfl]
    exact ih led
  | case4 => contradiction
  | case5 spot step rest moves down short last =>
    rw [follow, if_neg moves, if_neg down, if_neg short, if_pos last]
    exact led
  | case6 => contradiction
  | case7 spot step rest moves down short further next entered ih =>
    rw [follow, if_neg moves, if_neg down, if_neg short, if_neg further, enter_ok entered]
    exact ih led

private theorem ofPath_ok {path : String} (led : ofPath files path = .ok place) :
    ofPath other path = .ok place := by
  unfold ofPath at led ⊢
  dsimp only at led ⊢
  split
  next nul =>
    rw [if_pos nul] at led
    contradiction
  next clean =>
    rw [if_neg clean] at led
    split
    next rooted =>
      rw [if_pos rooted] at led
      split
      next long =>
        rw [if_pos long] at led
        contradiction
      next short =>
        rw [if_neg short] at led
        exact follow_ok led
    next local_ =>
      rw [if_neg local_] at led
      split
      next long =>
        rw [if_pos long] at led
        contradiction
      next short =>
        rw [if_neg short] at led
        exact follow_ok led

end Place

theorem Folder.completes_write {path text : String} {folder written : Folder}
    (done : write path text folder = .ok () written) : Completes (write path text) := by
  intro other
  unfold write at done ⊢
  cases led : Place.ofPath folder path with
  | error fault =>
    rw [led] at done
    contradiction
  | ok place =>
    rw [Place.ofPath_ok led]
    cases place with
    | outside => exact ⟨_, _, rfl⟩
    | inside name => exact ⟨_, _, rfl⟩

private theorem completes_forM {ε σ α : Type} {work : α → EStateM ε σ Unit} {l : List α} {s t : σ}
    (each : ∀ a s t, work a s = .ok () t → Completes (work a)) (done : l.forM work s = .ok () t) :
    Completes (l.forM work) := by
  induction l generalizing s with
  | nil => exact .pure _
  | cons a rest ih =>
    obtain ⟨_, u, first, later⟩ := bind_eq_ok done
    exact (each a s u first).bind fun _ => ih later

/-- What the engine is told about a module besides its code is the same. -/
structure CodeModule.Resembles (m other : CodeModule) : Prop where
  isa : other.isa = m.isa
  inputs : other.inputRelations = m.inputRelations
  outputs : other.outputRelations = m.outputRelations

/-- The answers of the engine do not depend on the facts that it is given. -/
def Engine.Fixed (engine : Engine) : Prop :=
  ∀ facts other names, engine facts names = engine other names

theorem Engine.fixed_ofAnswers (answers : Relations) : (ofAnswers answers).Fixed := fun _ _ _ => rfl

private theorem Relations.exists_comments {m : CodeModule} (other : CodeModule)
    {outcomes : List (Except Error (Option (Nat × String)))} {found : OrdMap Position String}
    (read : comments m outcomes = .ok found) : ∃ texts, comments other outcomes = .ok texts := by
  unfold comments at read ⊢
  cases all : allOk outcomes with
  | error e =>
    rw [all] at read
    contradiction
  | ok entries => exact ⟨_, rfl⟩

namespace Facts
variable {b again : Binary}

private theorem completes_all {folder facts : Folder}
    (alike : List.Forall₂ CodeModule.Resembles b.modules again.modules)
    (done : all b folder = .ok () facts) : Completes (all again) := by
  obtain ⟨_, written, embeds, done⟩ := bind_eq_ok done
  obtain ⟨_, _, _, tells⟩ := bind_eq_ok done
  have embedded : Completes (embedded again) := by
    unfold Facts.embedded at embeds ⊢
    generalize b.modules = before, again.modules = after at alike embeds ⊢
    cases alike with
    | nil => exact .pure _
    | cons resembles _ =>
      rw [List.head?_cons] at embeds ⊢
      dsimp only at embeds ⊢
      rw [resembles.inputs, resembles.outputs]
      exact completes_forM (fun _ _ _ => Folder.completes_write) embeds
  have architecture : Completes (architecture again) := by
    unfold Facts.architecture at tells ⊢
    generalize b.modules = before, again.modules = after at alike tells ⊢
    cases alike with
    | nil => exact .pure _
    | @cons first other _ _ resembles _ =>
      have same : other.sizes = first.sizes := by
        rw [CodeModule.sizes, CodeModule.sizes, resembles.isa]
      rw [List.head?_cons] at tells ⊢
      dsimp only at tells ⊢
      rw [same]
      cases sizes : first.sizes with
      | error e =>
        rw [sizes] at tells
        contradiction
      | ok words =>
        rw [sizes] at tells
        exact Folder.completes_write tells
  exact embedded.bind fun _ => (completes_controlFlow again).bind fun _ => architecture

end Facts

namespace CodeModule
variable {m : CodeModule}

theorem Seals.whole {place : Waypoint} (sealing : m.Seals place) : m.types.Whole place.type := by
  cases sealing with
  | bare found => exact .bare found
  | hollow opened found hollow => exact .hollow opened.1 found hollow

/-- What is found to be sealed are pointers without contents, also where reading fails. -/
inductive SealsWhole (m : CodeModule) {α : Type} : EStateM.Result Error Reading α → Prop where
  | ok {a : α} {t : Reading} (idle : t.following = [])
    (whole : ∀ p ∈ t.sealedPointers, m.types.Whole p) : SealsWhole m (.ok a t)
  | error {e : Error} {t : Reading} (idle : t.following = [])
    (whole : ∀ p ∈ t.sealedPointers, m.types.Whole p) : SealsWhole m (.error e t)

theorem readFunction_sealsWhole (function : NodeId) {s : Reading} (idle : s.following = [])
    (whole : ∀ p ∈ s.sealedPointers, m.types.Whole p) :
    m.SealsWhole (m.readFunction function s) := by
  obtain ⟨name, ret, params, outcome, -, covered, read⟩ | ⟨-, notices, read⟩ :=
    readFunction_covers (m := m) function idle
  · have report (p : NodeId) (sealing : (m.prototypeReport name ret params).seals p) :
        m.types.Whole p := by
      obtain ⟨side, start, _, place, _, rfl, sealing⟩ := sealing
      exact sealing.whole
    rw [read]
    cases covered with
    | ok kept _ _ sealing =>
      exact .ok (kept.trans idle) fun p inside => ((sealing p).mp inside).elim (whole p) (report p)
    | error kept _ _ sealing =>
      exact .error (kept.trans idle) fun p inside => (sealing p inside).elim (whole p) (report p)
  · rw [read]
    exact .ok idle whole

private theorem readInto_sealsWhole {functions : List NodeId} {all : OrdMap String ConstraintSet}
    {s : Reading} (idle : s.following = []) (whole : ∀ p ∈ s.sealedPointers, m.types.Whole p) :
    m.SealsWhole (m.readInto all functions s) := by
  induction functions generalizing all s with
  | nil => exact .ok idle whole
  | cons function rest ih =>
    have first := readFunction_sealsWhole function idle whole
    simp only [readInto]
    generalize m.readFunction function s = outcome at first
    cases first with
    | @ok found t idle whole =>
      cases found with
      | none => exact ih idle whole
      | some entry => exact ih idle whole
    | error idle whole =>
      dsimp only
      split
      · apply ih
        · exact idle
        · exact whole
      · exact .error idle whole

private theorem whole_of_readPrototypes {all : OrdMap String ConstraintSet} {s : Reading}
    {p : NodeId}
    (read : m.readPrototypes {} = .ok all s) (sealing : p ∈ s.sealedPointers) :
    m.types.Whole p := by
  have outcome : m.SealsWhole (m.readPrototypes {}) :=
    readInto_sealsWhole rfl fun p inside => absurd inside OrdSet.not_mem_empty
  rw [read] at outcome
  cases outcome with
  | ok _ whole => exact whole p sealing

end CodeModule

namespace Recovery
variable {settings : Settings} {r t : Recovery}

private theorem gives_readModule {m : CodeModule} {annotations : OrdMap String ConstraintSet}
    {s : Reading}
    (read : m.readPrototypes {} = .ok annotations s) :
    Gives (readModule m) r fun _ t => r.Alike t := by
  unfold readModule
  rw [read]
  exact (gives_note s.notices).bind fun _ t alike => .pure alike

theorem mergeModules_ok {modules : List CodeModule} {all merged : OrdMap String ConstraintSet}
    {found sealedTypes : SealedTypes}
    (done : mergeModules settings all found modules r = .ok (merged, sealedTypes) t) :
    r.Alike t ∧ ∀ origin, sealedTypes.Marks origin →
      found.Marks origin ∨ ∃ m ∈ modules, m.types.Whole origin := by
  induction modules generalizing all found r with
  | nil =>
    obtain ⟨same, rfl⟩ := pure_eq_ok done
    obtain ⟨rfl, rfl⟩ := Prod.mk.inj same
    exact ⟨.refl _, fun origin marked => .inl marked⟩
  | cons m rest ih =>
    obtain ⟨⟨annotations, own⟩, u, first, done⟩ := bind_eq_ok done
    obtain ⟨_, v, noted, later⟩ := bind_eq_ok done
    obtain ⟨s, read, rfl⟩ := readModule_ok first
    obtain ⟨alike, sealing⟩ := ih later
    have alike' : r.Alike v :=
      ((gives_readModule read).holds first).trans ((gives_note _).holds noted)
    refine ⟨alike'.trans alike, fun origin marked => ?_⟩
    rcases sealing origin marked with ⟨atom, before⟩ | ⟨other, listed, whole⟩
    · rw [OrdMap.get?_insertAll _ _ (OrdMap.nodup_keys _)] at before
      rcases before with own | ⟨_, earlier⟩
      · have known := (OrdMap.get?_eq_some_iff _ _ _).mpr own
        obtain ⟨sealing, _⟩ := Reading.sealedTypes_get?.mp known
        exact .inr ⟨m, List.mem_cons_self, CodeModule.whole_of_readPrototypes read sealing⟩
      · exact .inl ⟨atom, earlier⟩
    · exact .inr ⟨other, List.mem_cons_of_mem m listed, whole⟩

private theorem readModule_fails {m : CodeModule} {e : Error} {s : Reading}
    (read : m.readPrototypes {} = .error e s) : Fails (readModule m) r e fun _ => True := by
  unfold readModule
  rw [read]
  exact (gives_note s.notices).fails fun _ t _ => ⟨t, rfl, trivial⟩

private theorem gives_mergeModules {modules : List CodeModule} {all : OrdMap String ConstraintSet}
    {found : SealedTypes}
    (reads : ∀ m ∈ modules, ∃ annotations s, m.readPrototypes {} = .ok annotations s) :
    Gives (mergeModules settings all found modules) r fun _ t => r.Alike t := by
  induction modules generalizing all found r with
  | nil => exact .pure (.refl r)
  | cons m rest ih =>
    obtain ⟨annotations, s, read⟩ := reads m List.mem_cons_self
    refine (gives_readModule read).bind fun entry t alike => ?_
    refine (gives_note _).bind fun _ u alike' => ?_
    refine (ih fun m inside => reads m (List.mem_cons_of_mem _ inside)).mono fun _ v alike'' => ?_
    exact (alike.trans alike').trans alike''

private theorem mergeModules_fails {modules : List CodeModule} {all : OrdMap String ConstraintSet}
    {found : SealedTypes}
    (stuck : ∃ m ∈ modules, ∃ e s, m.readPrototypes {} = .error e s) :
    ∃ m ∈ modules, ∃ e s, m.readPrototypes {} = .error e s ∧
      Fails (mergeModules settings all found modules) r e fun _ => True := by
  induction modules generalizing all found r with
  | nil => simp at stuck
  | cons m rest ih =>
    cases read : m.readPrototypes {} with
    | error e s => exact ⟨m, List.mem_cons_self, e, s, read, (readModule_fails read).bind _⟩
    | ok annotations s =>
      obtain ⟨entry, t, first, _⟩ := gives_readModule (r := r) read
      obtain ⟨_, u, noted, _⟩ := gives_note (r := t) (mergeNotices settings all entry.1)
      -- The first module is no reason to stop, so a later one is.
      have later : ∃ m ∈ rest, ∃ e s, m.readPrototypes {} = .error e s := by
        obtain ⟨other, listed, e, s', failed⟩ := stuck
        rcases List.mem_cons.mp listed with rfl | later
        · rw [read] at failed
          contradiction
        · exact ⟨other, later, e, s', failed⟩
      obtain ⟨other, listed, e, s', failed, v, stopped, _⟩ := ih (r := u) later
      refine ⟨other, List.mem_cons_of_mem m listed, e, s', failed, v, ?_, trivial⟩
      simp only [mergeModules, bind, EStateM.bind, first, noted]
      exact stopped

private theorem gives_readAnnotations_of_reads (generated : OrdMap String ConstraintSet)
    (reads : ∀ m ∈ r.binary.modules, ∃ annotations s, m.readPrototypes {} = .ok annotations s) :
    Gives (readAnnotations {} generated) r fun _ _ => True := by
  refine gives_get.bind fun state t same => ?_
  obtain ⟨rfl, rfl⟩ := same
  refine (gives_mergeModules reads).bind fun found u _ => ?_
  refine (gives_note _).bind fun _ v _ => ?_
  exact (gives_modify _).bind fun _ w _ => .pure trivial

private theorem readAnnotations_fails (generated : OrdMap String ConstraintSet)
    (stuck : ∃ m ∈ r.binary.modules, ∃ e s, m.readPrototypes {} = .error e s) :
    ∃ m ∈ r.binary.modules, ∃ e s, m.readPrototypes {} = .error e s ∧
      Fails (readAnnotations {} generated) r e fun _ => True := by
  obtain ⟨m, listed, e, s, failed, stops⟩ := @mergeModules_fails {} r _ generated ∅ stuck
  refine ⟨m, listed, e, s, failed, gives_get.fails fun state t same => ?_⟩
  rw [same.1, same.2]
  exact stops.bind _

private theorem adopt_eq_ok {α : Type} {result : Except Error α} {notices : List Notice} {a : α}
    (done : adopt result notices r = .ok a t) :
    result = .ok a ∧ r.Alike t ∧ t.keptFacts = r.keptFacts := by
  cases result with
  | error e =>
    obtain ⟨_, _, _, done⟩ := bind_eq_ok done
    contradiction
  | ok b =>
    obtain ⟨_, _, same, rfl, alike⟩ := gives_adopt (r := r) b notices
    rw [done] at same
    obtain ⟨rfl, rfl⟩ := EStateM.Result.ok.inj same
    exact ⟨rfl, alike⟩

theorem runRules_ok {engine : Engine} {relations : Relations}
    (done : runRules engine r = .ok relations t) :
    ∃ facts, Facts.all r.binary (r.keptFacts.getD ∅) = .ok () facts ∧
      engine facts [Relations.constraintRelation, Relations.commentRelation] = .ok relations := by
  obtain ⟨folder, u, extracted, done⟩ := bind_eq_ok done
  obtain ⟨_, v, _, done⟩ := bind_eq_ok done
  refine ⟨folder, ?_, (adopt_eq_ok done).1⟩
  unfold extractFacts at extracted
  dsimp only at extracted
  split at extracted
  next facts written =>
    obtain ⟨rfl, _⟩ := EStateM.Result.ok.inj extracted
    exact written
  next => contradiction

theorem readResults_ok {m : CodeModule} {rest : List CodeModule} {inspection : Inspection}
    {relations : Relations} {generated : OrdMap String ConstraintSet}
    (modules : r.binary.modules = m :: rest)
    (done : readResults inspection relations r = .ok generated t) :
    (∃ comments, Relations.comments m (commentOutcomes inspection relations) = .ok comments) ∧
      Relations.constraints ((relations.get? Relations.constraintRelation).getD []) =
        .ok generated := by
  obtain ⟨notices, outcome⟩ := readResults_eq inspection relations r
  rw [done, commentsFor, modules] at outcome
  dsimp only at outcome
  split at outcome
  · contradiction
  · contradiction
  next comments constraints commented parsed =>
    obtain ⟨rfl, _⟩ := EStateM.Result.ok.inj outcome
    exact ⟨⟨comments, commented⟩, parsed⟩

section
variable {engine : Engine} {inspection : Inspection} {words : WordSizes}
  {generated : OrdMap String ConstraintSet} {inferred : Inferred} {x again : Recovery}

theorem infer_ok (some_module : r.binary.modules ≠ [])
    (done : infer {} engine closureSolver inspection r = .ok inferred t) :
    ∃ words generated x, ∃ sketches : Sketches, ∃ sealedTypes : SealedTypes,
      Reaches engine inspection r words generated x ∧ t.binary = x.binary ∧ t.supply = x.supply ∧
      inferred = sketches.infer ⟨sealedTypes, words.pointer, words.register⟩ ∧
      ∀ origin, sealedTypes.Marks origin → ∃ m ∈ x.binary.modules, m.types.Whole origin := by
  have run := done
  obtain ⟨state, _, got, done⟩ := bind_eq_ok done
  obtain ⟨rfl, rfl⟩ := EStateM.Result.ok.inj got
  cases modules : r.binary.modules with
  | nil => exact absurd modules some_module
  | cons m rest =>
    rw [modules] at done
    obtain ⟨words, u, sized, done⟩ := bind_eq_ok done
    obtain ⟨solution, w, solved, done⟩ := bind_eq_ok done
    obtain ⟨relations, v, ran, solved⟩ := bind_eq_ok solved
    obtain ⟨generated, x, read, solved⟩ := bind_eq_ok solved
    obtain ⟨merged, y, annotated, _⟩ := bind_eq_ok solved
    have reaches : Reaches engine inspection r words generated x :=
      ⟨m, rest, u, v, relations, modules, sized, ran, read⟩
    obtain ⟨binary, supply, drawn⟩ := (reaches.gives_sketches annotated).holds run
    obtain ⟨_, y', merging, rfl, binary', supply', -⟩ := readAnnotations_ok rfl annotated
    obtain ⟨alike, sealing⟩ := mergeModules_ok merging
    refine ⟨words, generated, x, _, y.sealedTypes, reaches, ?_, ?_, drawn, fun origin marked => ?_⟩
    · rw [binary, binary', alike.binary]
    · rw [supply, supply', alike.supply]
    · refine (sealing origin marked).resolve_left fun before => ?_
      obtain ⟨atom, found⟩ := before
      rw [OrdMap.get?_empty] at found
      contradiction

theorem Reaches.commented (reaches : Reaches engine inspection r words generated x) :
    ∃ comments, Commented inspection r x comments := by
  obtain ⟨m, rest, u, v, relations, modules, sized, ran, read⟩ := reaches
  obtain ⟨-, alike, -⟩ := adopt_eq_ok sized
  obtain ⟨facts, written, answered⟩ := runRules_ok ran
  obtain ⟨-, alike'⟩ := (gives_runRules_of_answer written answered).holds ran
  obtain ⟨binary, supply, calls, -, -⟩ := alike.trans alike'
  rw [← binary] at modules
  obtain ⟨⟨comments, commented⟩, parsed⟩ := readResults_ok modules read
  obtain ⟨-, changed⟩ := (gives_readResults_of_rows inspection modules commented parsed).holds read
  refine ⟨comments, ?_, changed.supply.trans supply, changed.calls.trans calls⟩
  rw [← binary]
  exact changed.binary

/-- A run whose engine gives the same answers gets as far over modules that look the same to it. -/
theorem Reaches.of_resembles (reaches : Reaches engine inspection r words generated x)
    (fixed : engine.Fixed)
    (alike : List.Forall₂ CodeModule.Resembles r.binary.modules again.binary.modules) :
    ∃ z, Reaches engine inspection again words generated z := by
  obtain ⟨m, rest, u, v, relations, modules, sized, ran, read⟩ := reaches
  obtain ⟨supported, same, -⟩ := adopt_eq_ok sized
  obtain ⟨facts, written, answered⟩ := runRules_ok ran
  obtain ⟨-, same'⟩ := (gives_runRules_of_answer written answered).holds ran
  obtain ⟨⟨_, commented⟩, parsed⟩ :=
    readResults_ok ((congrArg Binary.modules (same.trans same').binary).trans modules) read
  rw [same.binary] at written
  obtain ⟨other, others, resembles, -, modules'⟩ := List.forall₂_cons_left_iff.mp (modules ▸ alike)
  have supported' : other.sizes = .ok words := by
    rw [← supported, CodeModule.sizes, CodeModule.sizes, resembles.isa]
  obtain ⟨_, u', sized', rfl, same, -⟩ := gives_adopt (r := again) words []
  -- Facts that could be written once can be written into any folder.
  obtain ⟨_, facts', written'⟩ := Facts.completes_all alike written (u'.keptFacts.getD ∅)
  rw [← same.binary] at written' modules'
  have answered' : engine facts' [Relations.constraintRelation, Relations.commentRelation] =
      .ok relations := (fixed facts' facts _).trans answered
  obtain ⟨_, v', ran', rfl, same'⟩ := gives_runRules_of_answer written' answered'
  rw [← same'.binary] at modules'
  obtain ⟨_, commented'⟩ := Relations.exists_comments other commented
  obtain ⟨_, z, read', rfl, -⟩ := gives_readResults_of_rows inspection modules' commented' parsed
  rw [same'.binary, same.binary] at modules'
  exact ⟨z, other, others, u', v', _, modules', supported' ▸ sized', ran', read'⟩

section
variable (reaches : Reaches engine inspection r words generated x)
include reaches

private theorem Reaches.gives (reads : ∀ m ∈ x.binary.modules, ∃ annotations s,
      m.readPrototypes {} = .ok annotations s) :
    Gives (infer {} engine closureSolver inspection) r fun _ _ => True := by
  obtain ⟨merged, y, annotated, -⟩ := gives_readAnnotations_of_reads generated reads
  exact (reaches.gives_sketches annotated).mono fun _ _ _ => trivial

theorem Reaches.fails (stuck : ∃ m ∈ x.binary.modules, ∃ e s, m.readPrototypes {} = .error e s) :
    ∃ m ∈ x.binary.modules, ∃ e s, m.readPrototypes {} = .error e s ∧
      Fails (infer {} engine closureSolver inspection) r e fun _ => True := by
  obtain ⟨m, rest, u, v, relations, modules, sized, ran, read⟩ := reaches
  obtain ⟨other, listed, e, s, failed, stops⟩ := readAnnotations_fails generated stuck
  refine ⟨other, listed, e, s, failed, ?_⟩
  refine gives_get.fails fun state t same => ?_
  rw [same.1, same.2, modules]
  refine (gives_of_eq_ok sized).fails fun _ t same => ?_
  obtain ⟨rfl, rfl⟩ := same
  refine Fails.bind ?_ _
  refine (gives_of_eq_ok ran).fails fun _ t same => ?_
  obtain ⟨rfl, rfl⟩ := same
  refine (gives_of_eq_ok read).fails fun _ t same => ?_
  obtain ⟨rfl, rfl⟩ := same
  exact stops.bind _

/-- A run that comes to read prototypes ends well just if all of them can be read. -/
theorem Reaches.infer_iff :
    ((∃ inferred t, infer {} engine closureSolver inspection r = .ok inferred t) ↔
      ∀ m ∈ x.binary.modules, ∃ annotations s, m.readPrototypes {} = .ok annotations s) ∧
    ∀ e t, infer {} engine closureSolver inspection r = .error e t →
      ∃ m ∈ x.binary.modules, ∃ s, m.readPrototypes {} = .error e s := by
  by_cases reads : ∀ m ∈ x.binary.modules, ∃ annotations s, m.readPrototypes {} = .ok annotations s
  · obtain ⟨inferred, t, done, -⟩ := reaches.gives reads
    refine ⟨iff_of_true ⟨inferred, t, done⟩ reads, fun e t failed => ?_⟩
    rw [done] at failed
    contradiction
  · have stuck : ∃ m ∈ x.binary.modules, ∃ e s, m.readPrototypes {} = .error e s := by
      push Not at reads
      obtain ⟨m, listed, failed⟩ := reads
      cases read : m.readPrototypes {} with
      | ok annotations s => exact absurd read (failed annotations s)
      | error e s => exact ⟨m, listed, e, s, read⟩
    obtain ⟨m, listed, e, s, failed, t, stopped, -⟩ := reaches.fails stuck
    rw [stopped]
    refine ⟨iff_of_false (by simp) reads, fun e' t' same => ?_⟩
    obtain ⟨rfl, rfl⟩ := EStateM.Result.error.inj same
    exact ⟨m, listed, s, failed⟩

end

end

end Recovery
end TypeRecovery
