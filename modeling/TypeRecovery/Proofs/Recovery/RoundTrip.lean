import TypeRecovery.Proofs.Recovery.Restoring
import TypeRecovery.Proofs.Recovery.Results
import TypeRecovery.Recovery

/-! A whole run with an engine that finds nothing. All that is known are the recorded prototypes, and
what is written back are the same prototypes. The only thing that can stop such a run is a relation
embedded in the module that cannot be written as a file. -/
namespace TypeRecovery

/-- The engine answers every question, and always with no rows. -/
def Engine.Silent (engine : Engine) : Prop :=
  ∀ facts names, ∃ relations, engine facts names = .ok relations ∧
    ∀ name rows, relations.get? name = some rows → rows = []

theorem Engine.silent_ofAnswers : (ofAnswers ∅).Silent := by
  intro facts names
  have empty (names : List String) (start : Relations)
      (before : ∀ name rows, start.get? name = some rows → rows = []) (name : String)
      (rows : List (List String)) (found : (start.insertAll (names.map fun name =>
        (name, ((∅ : Relations).get? name).getD []))).get? name = some rows) : rows = [] := by
    induction names generalizing start with
    | nil => exact before name rows found
    | cons first rest ih =>
      apply ih _ _ found
      intro name rows found
      rw [OrdMap.get?_insert] at found
      split at found
      · rw [← Option.some.inj found]
        rfl
      · exact before name rows found
  refine ⟨_, rfl, fun name rows found => empty names ∅ ?_ name rows found⟩
  intro name rows found
  rw [OrdMap.get?_empty] at found
  contradiction

namespace Facts
variable {b : Binary} {m : CodeModule} {words : WordSizes}

theorem completes_write {path text : String}
    (plain : ∀ files : Folder, Place.ofPath files path = .ok (.inside path)) :
    Completes (Folder.write path text) := by
  intro folder
  refine ⟨(), folder.insert path text, ?_⟩
  rw [Folder.write, plain folder]

theorem completes_controlFlow (b : Binary) : Completes (controlFlow b) := by
  have instructions : Completes (Facts.instructions b) :=
    (completes_write fun _ => rfl).bind fun _ =>
      (completes_write fun _ => rfl).bind fun _ => completes_write fun _ => rfl
  have edges : Completes (Facts.edges b) :=
    (completes_write fun _ => rfl).bind fun _ =>
      (completes_write fun _ => rfl).bind fun _ => completes_write fun _ => rfl
  have blocks : Completes (Facts.blocks b) := by
    unfold Facts.blocks writeRows
    exact completes_write fun _ => rfl
  exact instructions.bind fun _ => blocks.bind fun _ => edges

private theorem completes_architecture (single : b.modules = [m])
    (supported : m.isa.sizes? = some words) : Completes (architecture b) := by
  have sizes : m.sizes = .ok words := by rw [CodeModule.sizes, supported]
  unfold architecture
  rw [single, List.head?_cons]
  dsimp only
  rw [sizes]
  exact completes_write fun _ => rfl

private theorem all_of_embedded {folder written : Folder} (single : b.modules = [m])
    (supported : m.isa.sizes? = some words) (done : embedded b folder = .ok () written) :
    ∃ facts, all b folder = .ok () facts := by
  have later : Completes (controlFlow b >>= fun _ => architecture b) :=
    (completes_controlFlow b).bind fun _ => completes_architecture single supported
  obtain ⟨_, facts, ended⟩ := later written
  refine ⟨facts, ?_⟩
  rw [all]
  simp only [bind, EStateM.bind, done]
  exact ended

private theorem all_of_not_embedded {folder written : Folder} {e : Error}
    (failed : embedded b folder = .error e written) : all b folder = .error e written := by
  rw [all]
  simp only [bind, EStateM.bind, failed]

end Facts

namespace CodeModule
variable {m restored : CodeModule} {words : WordSizes}

theorem Annotated.comment (annotated : m.Annotated words)
    (comments : OrdMap Position String) :
    ({ m with comments := comments } : CodeModule).Annotated words where
  supported := annotated.supported
  ids := annotated.ids
  names := annotated.names
  known := annotated.known
  described id type recorded := by
    obtain ⟨ret, params, declared, result, arguments, few⟩ := annotated.described id type recorded
    exact ⟨ret, params, declared, result, arguments, few⟩

private theorem Restores.of_comment {comments : OrdMap Position String}
    (restores : ({ m with comments := comments } : CodeModule).Restores restored) :
    m.Restores restored where
  kept := restores.kept
  keys := restores.keys
  recovered := restores.recovered
  equivalent := restores.equivalent
  only := restores.only

end CodeModule

namespace Recovery
variable {r : Recovery} {m : CodeModule} {words : WordSizes} {engine : Engine}

/-- What recording types depends on is the same before and after. -/
structure Alike (r t : Recovery) : Prop where
  binary : t.binary = r.binary
  supply : t.supply = r.supply
  calls : t.calls = r.calls
  sealedTypes : t.sealedTypes = r.sealedTypes
  lattice : t.lattice = r.lattice

theorem Alike.refl (r : Recovery) : r.Alike r := ⟨rfl, rfl, rfl, rfl, rfl⟩

theorem Alike.trans {r t u : Recovery} (first : r.Alike t) (second : t.Alike u) : r.Alike u where
  binary := second.binary.trans first.binary
  supply := second.supply.trans first.supply
  calls := second.calls.trans first.calls
  sealedTypes := second.sealedTypes.trans first.sealedTypes
  lattice := second.lattice.trans first.lattice

theorem gives_note (notices : List Notice) : Gives (note notices) r fun _ t => r.Alike t :=
  ⟨(), _, rfl, rfl, rfl, rfl, rfl, rfl⟩

theorem gives_adopt {α : Type} (a : α) (notices : List Notice) :
    Gives (adopt (.ok a) notices) r fun found t =>
      found = a ∧ r.Alike t ∧ t.keptFacts = r.keptFacts :=
  ⟨a, _, rfl, rfl, ⟨rfl, rfl, rfl, rfl, rfl⟩, rfl⟩

theorem gives_runRules_of_answer {facts : Folder} {relations : Relations}
    (written : Facts.all r.binary (r.keptFacts.getD ∅) = .ok () facts)
    (answered : engine facts [Relations.constraintRelation, Relations.commentRelation] =
      .ok relations) :
    Gives (runRules engine) r fun found t => found = relations ∧ r.Alike t := by
  have extracted : Gives extractFacts r fun found t => found = facts ∧ r.Alike t := by
    refine ⟨facts, { r with keptFacts := r.keptFacts.map fun _ => facts }, ?_,
      rfl, rfl, rfl, rfl, rfl, rfl⟩
    rw [extractFacts]
    simp only [written]
  refine extracted.bind fun found t state => ?_
  obtain ⟨rfl, alike⟩ := state
  refine (gives_modify _).bind fun _ u counted => ?_
  have alike' : t.Alike u := by
    rw [counted]
    exact ⟨rfl, rfl, rfl, rfl, rfl⟩
  rw [answered]
  refine (gives_adopt relations []).mono fun result v state => ?_
  obtain ⟨rfl, alike'', _⟩ := state
  exact ⟨rfl, (alike.trans alike').trans alike''⟩

/-- Under inspection the first module has got new comments, and nothing else has changed. -/
structure Commented (inspection : Inspection) (r t : Recovery)
    (comments : OrdMap Position String) : Prop where
  binary : t.binary = if inspection.enabled then setComments comments r.binary else r.binary
  supply : t.supply = r.supply
  calls : t.calls = r.calls

theorem gives_readResults_of_rows {relations : Relations} {rest : List CodeModule}
    {comments : OrdMap Position String} {constraints : OrdMap String ConstraintSet}
    (inspection : Inspection) (modules : r.binary.modules = m :: rest)
    (commented : Relations.comments m (commentOutcomes inspection relations) = .ok comments)
    (parsed : Relations.constraints ((relations.get? Relations.constraintRelation).getD []) =
      .ok constraints) :
    Gives (readResults inspection relations) r fun found t =>
      found = constraints ∧ Commented inspection r t comments := by
  have commented' : commentsFor inspection relations r.binary = .ok comments := by
    rw [commentsFor, modules]
    exact commented
  have parsed' : constraintsIn relations = .ok constraints := parsed
  obtain ⟨notices, outcome⟩ := readResults_eq inspection relations r
  rw [commented', parsed'] at outcome
  exact ⟨constraints, _, outcome, rfl, rfl, rfl, rfl⟩

namespace Commented
variable {inspection : Inspection} {t : Recovery} {comments : OrdMap Position String}
  (commented : Commented inspection r t comments)
include commented

theorem of_single (single : r.binary.modules = [m]) :
    ∃ comments, t.binary = { r.binary with modules := [{ m with comments := comments }] } := by
  rw [commented.binary]
  split
  · exact ⟨comments, by rw [setComments, single]⟩
  · exact ⟨m.comments, by rw [← single]⟩

theorem of_disabled (disabled : inspection.enabled = false) : t.binary = r.binary := by
  rw [commented.binary, disabled]
  rfl

end Commented

private theorem mergeFunction_fold (start : OrdMap String ConstraintSet)
    (entries : List (String × ConstraintSet)) :
    entries.foldl (mergeFunction {}) start = start.insertAll entries := by
  induction entries generalizing start with
  | nil => rfl
  | cons entry rest ih =>
    have merged : mergeFunction {} start entry = start.insert entry.1 entry.2 := by
      unfold mergeFunction
      split <;> rfl
    rw [List.foldl_cons, merged, ih]
    rfl

private theorem gives_readAnnotations {generated all : OrdMap String ConstraintSet} {s : Reading}
    (single : r.binary.modules = [m]) (read : m.readPrototypes {} = .ok all s) :
    Gives (readAnnotations {} generated) r fun merged t =>
      merged = generated.insertAll all.entries ∧ t.binary = r.binary ∧ t.supply = r.supply ∧
      t.calls = r.calls ∧ t.sealedTypes = s.sealedTypes ∧
      t.lattice = .extend {} s.sealedTypes.keys := by
  have module : Gives (readModule m) r fun found t => found = (all, s.sealedTypes) ∧ r.Alike t := by
    unfold readModule
    rw [read]
    refine (gives_note s.notices).bind fun _ t alike => .pure ⟨rfl, alike⟩
  have merged : Gives (mergeModules {} generated ∅ [m]) r fun found t =>
      found = (generated.insertAll all.entries, s.sealedTypes) ∧ r.Alike t := by
    unfold mergeModules
    refine module.bind fun found t given => ?_
    obtain ⟨rfl, alike⟩ := given
    refine (gives_note _).bind fun _ u alike' => .pure ⟨?_, alike.trans alike'⟩
    rw [mergeFunction_fold]
    exact congrArg (Prod.mk _) (OrdMap.ofList_entries s.sealedTypes)
  refine gives_get.bind fun state t same => ?_
  obtain ⟨rfl, rfl⟩ := same
  rw [single]
  refine merged.bind fun found u given => ?_
  obtain ⟨rfl, alike⟩ := given
  refine (gives_note _).bind fun _ v alike' => ?_
  obtain ⟨binary, supply, calls, _, _⟩ := alike.trans alike'
  refine (gives_modify _).bind fun _ w same => .pure ?_
  rw [same]
  exact ⟨rfl, binary, supply, calls, rfl, rfl⟩

private theorem gives_drawSketch (entry : TypeVar × Sketch) :
    Gives (drawSketch entry) r fun _ t => r.Alike t := by
  unfold drawSketch
  split
  · exact .pure (.refl r)
  · refine gives_get.bind fun state t same => ?_
    obtain ⟨rfl, rfl⟩ := same
    dsimp only
    split
    · exact ⟨(), _, rfl, rfl, rfl, rfl, rfl, rfl⟩
    · exact gives_note _

private theorem gives_drawSketches (entries : List (TypeVar × Sketch)) :
    Gives (entries.forM drawSketch) r fun _ t => r.Alike t := by
  induction entries generalizing r with
  | nil => exact .pure (.refl r)
  | cons entry rest ih =>
    refine (gives_drawSketch entry).bind fun _ t alike => ?_
    exact ih.mono fun _ u alike' => alike.trans alike'

/-- The run comes to read prototypes in a state, with the sizes of words and the constraints that it
has found by then. -/
def Reaches (engine : Engine) (inspection : Inspection) (r : Recovery) (words : WordSizes)
    (generated : OrdMap String ConstraintSet) (x : Recovery) : Prop :=
  ∃ m rest u v relations, r.binary.modules = m :: rest ∧ adopt m.sizes [] r = .ok words u ∧
    runRules engine u = .ok relations v ∧ readResults inspection relations v = .ok generated x

/-- The types are read off the solution of all constraints, those of the prototypes included. -/
theorem Reaches.gives_sketches {inspection : Inspection}
    {generated merged : OrdMap String ConstraintSet} {x y : Recovery}
    (reaches : Reaches engine inspection r words generated x)
    (annotated : readAnnotations {} generated x = .ok merged y) :
    Gives (infer {} engine closureSolver inspection) r fun inferred t =>
      t.binary = y.binary ∧ t.supply = y.supply ∧
      inferred = (Problem.solveByClosure ⟨y.lattice, merged, y.calls⟩).sketches.infer
        ⟨y.sealedTypes, words.pointer, words.register⟩ := by
  obtain ⟨m, rest, u, v, relations, modules, sized, ran, read⟩ := reaches
  refine gives_get.bind fun state t same => ?_
  rw [same.1, same.2, modules]
  refine (gives_of_eq_ok sized).bind fun _ t same => ?_
  obtain ⟨rfl, rfl⟩ := same
  have solved : Gives (solve {} engine closureSolver inspection) t fun solution z =>
      solution = Problem.solveByClosure ⟨y.lattice, merged, y.calls⟩ ∧ y.Alike z := by
    refine (gives_of_eq_ok ran).bind fun _ t same => ?_
    obtain ⟨rfl, rfl⟩ := same
    refine (gives_of_eq_ok read).bind fun _ t same => ?_
    obtain ⟨rfl, rfl⟩ := same
    refine (gives_of_eq_ok annotated).bind fun _ t same => ?_
    obtain ⟨rfl, rfl⟩ := same
    refine gives_get.bind fun state z same => ?_
    rw [same.1, same.2]
    refine (gives_adopt _ []).bind fun solution z given => ?_
    obtain ⟨rfl, alike, -⟩ := given
    split
    · exact (gives_drawSketches _).bind fun _ _ drawn => .pure ⟨rfl, alike.trans drawn⟩
    · exact .pure ⟨rfl, alike⟩
  refine solved.bind fun solution z given => ?_
  obtain ⟨rfl, alike⟩ := given
  refine (gives_note _).bind fun _ w noted => gives_get.bind fun state _ same => .pure ?_
  have alike := alike.trans noted
  rw [same.1, same.2, alike.sealedTypes]
  exact ⟨alike.binary, alike.supply, rfl⟩

/-- A run over one module has the rows that the engine answers to go by, and the prototypes, which
replace what the rows say about a function. -/
theorem gives_infer_of_answer {facts : Folder} {relations : Relations}
    {comments : OrdMap Position String} {generated : OrdMap String ConstraintSet}
    (inspection : Inspection) (single : r.binary.modules = [m]) (supported : m.sizes = .ok words)
    (written : Facts.all r.binary (r.keptFacts.getD ∅) = .ok () facts)
    (answered : engine facts [Relations.constraintRelation, Relations.commentRelation] =
      .ok relations)
    (commented : Relations.comments m (commentOutcomes inspection relations) = .ok comments)
    (parsed : Relations.constraints ((relations.get? Relations.constraintRelation).getD []) =
      .ok generated)
    (reads : ∀ comments, ∃ all s,
      ({ m with comments := comments } : CodeModule).readPrototypes {} = .ok all s) :
    Gives (infer {} engine closureSolver inspection) r fun inferred t => t.supply = r.supply ∧
      (inspection.enabled = false → t.binary = r.binary) ∧ ∃ comments all s,
        t.binary = { r.binary with modules := [{ m with comments := comments }] } ∧
        ({ m with comments := comments } : CodeModule).readPrototypes {} = .ok all s ∧
        inferred = (Problem.solveByClosure ⟨.extend {} s.sealedTypes.keys,
          generated.insertAll all.entries, r.calls⟩).sketches.infer
            ⟨s.sealedTypes, words.pointer, words.register⟩ := by
  obtain ⟨words, u, sized, rfl, same, kept⟩ := gives_adopt (r := r) words []
  rw [← same.binary, ← kept] at written
  obtain ⟨relations, v, ran, rfl, same'⟩ := gives_runRules_of_answer written answered
  have single' : v.binary.modules = [m] := by rw [same'.binary, same.binary, single]
  obtain ⟨generated, x, read, rfl, changed⟩ :=
    gives_readResults_of_rows inspection single' commented parsed
  obtain ⟨comments, binary⟩ := changed.of_single single'
  obtain ⟨all, s, told⟩ := reads comments
  have single'' : x.binary.modules = [{ m with comments := comments }] := by rw [binary]
  obtain ⟨_, y, annotated, rfl, binary', supply', calls', sealedTypes, lattice⟩ :=
    gives_readAnnotations single'' told
  have reaches : Reaches engine inspection r words generated x :=
    ⟨m, [], u, v, relations, single, supported ▸ sized, ran, read⟩
  refine (reaches.gives_sketches annotated).mono fun inferred t given => ?_
  obtain ⟨binary'', supply'', drawn⟩ := given
  refine ⟨?_, fun disabled => ?_, comments, _, s, ?_, told, ?_⟩
  · rw [supply'', supply', changed.supply, same'.supply, same.supply]
  · rw [binary'', binary', changed.of_disabled disabled, same'.binary, same.binary]
  · rw [binary'', binary', binary, same'.binary, same.binary]
  · rw [drawn, lattice, calls', changed.calls, same'.calls, same.calls, sealedTypes]

theorem gives_infer_of_reads {facts : Folder} (inspection : Inspection) (silent : engine.Silent)
    (single : r.binary.modules = [m]) (supported : m.sizes = .ok words)
    (written : Facts.all r.binary (r.keptFacts.getD ∅) = .ok () facts)
    (reads : ∀ comments, ∃ all s,
      ({ m with comments := comments } : CodeModule).readPrototypes {} = .ok all s) :
    Gives (infer {} engine closureSolver inspection) r fun inferred t => t.supply = r.supply ∧
      (inspection.enabled = false → t.binary = r.binary) ∧ ∃ comments all s,
        t.binary = { r.binary with modules := [{ m with comments := comments }] } ∧
        ({ m with comments := comments } : CodeModule).readPrototypes {} = .ok all s ∧
        inferred = (Problem.solveByClosure
          ⟨.extend {} s.sealedTypes.keys, all, r.calls⟩).sketches.infer
            ⟨s.sealedTypes, words.pointer, words.register⟩ := by
  obtain ⟨relations, answered, empty⟩ :=
    silent facts [Relations.constraintRelation, Relations.commentRelation]
  have none (name : String) : (relations.get? name).getD [] = [] := by
    cases found : relations.get? name with
    | none => rfl
    | some rows => exact empty name rows found
  have outcomes : commentOutcomes inspection relations = [] := by
    unfold commentOutcomes
    split
    · rfl
    · rw [none]
      rfl
  have commented : Relations.comments m (commentOutcomes inspection relations) = .ok ∅ := by
    rw [outcomes]
    rfl
  have parsed : Relations.constraints ((relations.get? Relations.constraintRelation).getD []) =
      .ok ∅ := by
    rw [none]
    rfl
  refine (gives_infer_of_answer inspection single supported written answered commented parsed
    reads).mono fun inferred t given => ?_
  obtain ⟨supply, still, comments, all, s, binary, read, drawn⟩ := given
  have alone : (∅ : OrdMap String ConstraintSet).insertAll all.entries = all :=
    OrdMap.ofList_entries all
  rw [alone] at drawn
  exact ⟨supply, still, comments, all, s, binary, read, drawn⟩

theorem gives_infer {facts : Folder} (inspection : Inspection) (silent : engine.Silent)
    (single : r.binary.modules = [m]) (annotated : m.Annotated words)
    (written : Facts.all r.binary (r.keptFacts.getD ∅) = .ok () facts) :
    Gives (infer {} engine closureSolver inspection) r fun inferred t =>
      t.supply = r.supply ∧ ∃ comments,
        t.binary = { r.binary with modules := [{ m with comments := comments }] } ∧
        inferred.Presents { m with comments := comments } words := by
  have sizes : m.sizes = .ok words := by rw [CodeModule.sizes, annotated.supported]
  have reads (comments : OrdMap Position String) : ∃ all s,
      ({ m with comments := comments } : CodeModule).readPrototypes {} = .ok all s := by
    obtain ⟨all, s, read, _⟩ := (annotated.comment comments).readPrototypes
    exact ⟨all, s, read⟩
  refine (gives_infer_of_reads inspection silent single sizes written reads).mono
    fun inferred t given => ?_
  obtain ⟨supply, -, comments, all, s, binary, read, rfl⟩ := given
  exact ⟨supply, comments, binary, (annotated.comment comments).presents r.calls read⟩

theorem infer_fails {folder : Folder} {e : Error} (solver : Solver) (inspection : Inspection)
    (single : r.binary.modules = [m]) (annotated : m.Annotated words)
    (failed : Facts.all r.binary (r.keptFacts.getD ∅) = .error e folder) :
    Fails (infer {} engine solver inspection) r e fun t => t.binary = r.binary := by
  have sizes : m.sizes = .ok words := by rw [CodeModule.sizes, annotated.supported]
  refine gives_get.fails fun state t same => ?_
  rw [same.1, same.2, single]
  dsimp only
  rw [sizes]
  refine (gives_adopt words []).fails fun found t given => ?_
  obtain ⟨rfl, alike, facts'⟩ := given
  rw [← alike.binary, ← facts'] at failed
  have extracted : Fails extractFacts t e fun u => u.binary = r.binary := by
    refine ⟨{ t with keptFacts := t.keptFacts.map fun _ => folder }, ?_, alike.binary⟩
    rw [extractFacts]
    simp only [failed]
  exact ((extracted.bind _).bind _).bind _

theorem gives_write {inferred : Inferred} (presents : inferred.Presents m words)
    (annotated : m.Annotated words) (single : r.binary.modules = [m])
    (ids : ∀ id, m.types.contains id → id.value < r.supply.next) :
    Gives (write inferred) r fun _ t => ∃ restored,
      t.binary = { r.binary with modules := [restored] } ∧ m.Restores restored := by
  obtain ⟨s, done, restores⟩ := presents.restores annotated ids
  have recorded : recordModules inferred r.supply r.binary.modules =
      (.ok (), [s.target], s.supply, s.notices ++ []) := by
    rw [single, recordModules, done]
    rfl
  refine ⟨(), { r with
    binary := { r.binary with modules := [s.target] }
    supply := s.supply
    notices := r.notices ++ (s.notices ++ []) }, ?_, s.target, rfl, restores⟩
  unfold write
  rw [recorded]

/-- A run over a module whose prototypes are all representable, with an engine that finds nothing,
gives the module its own prototypes back. If the facts that the module brings along cannot be
written, the run reports that and changes nothing. -/
theorem infer_write_restores (b : Binary) (supply : Supply) (keepFacts : Bool)
    (inspection : Inspection) (silent : engine.Silent) (single : b.modules = [m])
    (annotated : m.Annotated words)
    (ids : ∀ id, m.types.contains id → id.value < supply.next) :
    (∀ folder, Facts.embedded b ∅ = .ok () folder → ∃ inferred r t restored,
        infer {} engine closureSolver inspection (start b supply keepFacts) = .ok inferred r ∧
        write inferred r = .ok () t ∧ t.binary = { b with modules := [restored] } ∧
        m.Restores restored) ∧
      ∀ e folder, Facts.embedded b ∅ = .error e folder → ∃ r,
        infer {} engine closureSolver inspection (start b supply keepFacts) = .error e r ∧
        r.binary = b := by
  have fresh : (start b supply keepFacts).keptFacts.getD ∅ = ∅ := by
    cases keepFacts <;> rfl
  refine ⟨fun folder embedded => ?_, fun e folder embedded => ?_⟩
  · obtain ⟨facts, done⟩ := Facts.all_of_embedded single annotated.supported embedded
    have written : Facts.all (start b supply keepFacts).binary
        ((start b supply keepFacts).keptFacts.getD ∅) = .ok () facts := by
      rw [fresh]
      exact done
    obtain ⟨inferred, r, inferring, same, comments, binary, presents⟩ :=
      gives_infer inspection silent single annotated written
    have single' : r.binary.modules = [{ m with comments := comments }] := by rw [binary]
    obtain ⟨_, t, writing, restored, binary', restores⟩ :=
      gives_write presents (annotated.comment comments) single' (by rw [same]; exact ids)
    refine ⟨inferred, r, t, restored, inferring, writing, ?_, restores.of_comment⟩
    rw [binary', binary]
    rfl
  · have failed := Facts.all_of_not_embedded embedded
    rw [← fresh] at failed
    exact infer_fails closureSolver inspection single annotated failed

/-- A number and pointers to it, to a structure, to bytes of no type and to nothing, and a function
that takes and returns them. -/
def recordTypes : TypeTable :=
  OrdMap.ofList [(⟨4⟩, .void), (⟨5⟩, .int 4 true), (⟨6⟩, .pointer none),
    (⟨7⟩, .pointer (some ⟨4⟩)), (⟨8⟩, .pointer (some ⟨5⟩)),
    (⟨9⟩, .struct 24 [(0, ⟨5⟩), (8, ⟨8⟩), (16, ⟨7⟩)]), (⟨10⟩, .pointer (some ⟨9⟩)),
    (⟨11⟩, .function (some ⟨10⟩) [some ⟨8⟩, some ⟨10⟩, some ⟨6⟩])]

/-- A module with that function, which brings along a relation. -/
def recordModule (relation : String) : CodeModule where
  name := "m"
  isa := .x64
  codeBlocks := OrdMap.ofList [(⟨1⟩, ⟨4096, 16, []⟩)]
  symbols := [⟨⟨3⟩, "f", some ⟨1⟩⟩]
  functions := [⟨⟨2⟩, ["f"], OrdSet.ofList [⟨1⟩], OrdSet.ofList [⟨1⟩]⟩]
  types := recordTypes
  prototypes := OrdMap.ofList [(⟨2⟩, ⟨11⟩)]
  inputRelations := OrdMap.ofList [(relation, ⟨"x:number", "1\n"⟩)]

private theorem recordTypes_representable :
    ∀ id ∈ [(⟨10⟩ : NodeId), ⟨8⟩, ⟨6⟩], recordTypes.Representable 8 id := by
  have number : recordTypes.Representable 8 ⟨5⟩ := .scalar rfl (.int true (by decide))
  have address : recordTypes.Representable 8 ⟨8⟩ := .pointer rfl (by decide) number
  have bytes : recordTypes.Representable 8 ⟨7⟩ := .whole (.hollow rfl rfl rfl)
  have record : recordTypes.Representable 8 ⟨10⟩ := by
    refine .record rfl rfl (by decide) (by decide) (.inl (by decide)) (by decide) ?_ ?_ ?_
    · simpa using ⟨number, address, bytes⟩
    · simp only [List.forall_mem_cons, List.not_mem_nil, false_implies, implies_true, and_true]
      refine ⟨fun n size => ?_, fun n size => ?_, fun n size => ?_⟩
      · have four : n = 4 := size.unique (.int rfl)
        omega
      · have eight : n = 8 := size.unique (.pointer rfl)
        omega
      · have eight : n = 8 := size.unique (.pointer rfl)
        omega
    · exact ⟨(16, ⟨7⟩), by decide, 8, .pointer rfl, rfl⟩
  simpa using ⟨record, address, .whole (.bare rfl)⟩

private theorem recordModule_annotated (relation : String) :
    (recordModule relation).Annotated ⟨8, 8⟩ := by
  have recorded (id type : NodeId) (found : (recordModule relation).prototypes.get? id = some type) :
      id = ⟨2⟩ ∧ type = ⟨11⟩ := by
    have listed := (OrdMap.get?_ofList [((⟨2⟩ : NodeId), (⟨11⟩ : NodeId))] (by decide) id type).mp found
    exact Prod.mk.inj (List.mem_singleton.mp listed)
  refine ⟨rfl, by simp [recordModule], by simp [recordModule], ?_, ?_⟩
  · intro id type found
    obtain ⟨rfl, rfl⟩ := recorded id type found
    exact ⟨_, List.mem_singleton_self _, rfl⟩
  · intro id type found
    obtain ⟨rfl, rfl⟩ := recorded id type found
    refine ⟨⟨10⟩, [⟨8⟩, ⟨10⟩, ⟨6⟩], rfl, ?_, ?_, by decide⟩
    · exact recordTypes_representable _ (by decide)
    · intro id inside
      apply recordTypes_representable
      revert id
      decide

private theorem recordTypes_below (id : NodeId) (inside : recordTypes.contains id) :
    id.value < 12 := by
  have all : ∀ id ∈ recordTypes.keys, id.value < 12 := by decide
  exact all id ((OrdMap.mem_keys _ _).mpr ((OrdMap.contains_iff _ _).mp inside))

private theorem embedded_record (relation : String) :
    Facts.embedded { modules := [recordModule relation] } =
      Folder.write (Facts.fileName relation) "1\n" >>= fun _ => pure () := rfl

theorem infer_write_restores_record : ∃ folder,
    Facts.embedded { modules := [recordModule "access"] } ∅ = .ok () folder ∧
    ∃ inferred r t restored,
      infer {} (Engine.ofAnswers ∅) closureSolver {}
        (start { modules := [recordModule "access"] } ⟨12⟩ false) = .ok inferred r ∧
      write inferred r = .ok () t ∧ t.binary = { modules := [restored] } ∧
      (recordModule "access").Restores restored := by
  have written : Folder.write (Facts.fileName "access") "1\n" ∅ =
      .ok () ((∅ : Folder).insert "access.facts" "1\n") := rfl
  have embedded : Facts.embedded { modules := [recordModule "access"] } ∅ =
      .ok () ((∅ : Folder).insert "access.facts" "1\n") := by
    rw [embedded_record]
    simp only [bind, EStateM.bind, written]
    rfl
  have run := infer_write_restores { modules := [recordModule "access"] } ⟨12⟩ false {}
    Engine.silent_ofAnswers rfl (recordModule_annotated "access") recordTypes_below
  exact ⟨_, embedded, run.1 _ embedded⟩

/-- A relation whose name is a path into a folder that is not there stops a run, whatever the
prototypes are. -/
theorem infer_record_stops : (recordModule "a/b").Annotated ⟨8, 8⟩ ∧
    (∀ id, (recordModule "a/b").types.contains id → id.value < 12) ∧
    (Engine.ofAnswers ∅).Silent ∧
    ∃ r, infer {} (Engine.ofAnswers ∅) closureSolver {}
      (start { modules := [recordModule "a/b"] } ⟨12⟩ false) =
        .error (.system PlaceError.noFolder.message) r := by
  have annotated := recordModule_annotated "a/b"
  have refused : Folder.write (Facts.fileName "a/b") "1\n" ∅ =
      .error (.system PlaceError.noFolder.message) ∅ := rfl
  have embedded : Facts.embedded { modules := [recordModule "a/b"] } ∅ =
      .error (.system PlaceError.noFolder.message) ∅ := by
    rw [embedded_record]
    simp only [bind, EStateM.bind, refused]
  have failed := Facts.all_of_not_embedded embedded
  have stopped : Fails (infer {} (Engine.ofAnswers ∅) closureSolver {})
      (start { modules := [recordModule "a/b"] } ⟨12⟩ false)
      (.system PlaceError.noFolder.message) fun t => t.binary = { modules := [recordModule "a/b"] } :=
    infer_fails closureSolver {} rfl annotated failed
  obtain ⟨r, stopped, _⟩ := stopped
  exact ⟨annotated, recordTypes_below, Engine.silent_ofAnswers, r, stopped⟩

end Recovery
end TypeRecovery
