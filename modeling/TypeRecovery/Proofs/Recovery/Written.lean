import Mathlib.Data.List.Forall2
import TypeRecovery.Proofs.Recovery.Rerun

/-! What a run has written, and what a second run makes of it. With an engine that gives the same
answers, all that can stop the second run is a type that the first one has written and that
prototypes must not have. -/
namespace TypeRecovery

section
variable {α β : Type} {R : α → β → Prop} {l : List α} {others : List β}

private theorem exists_mem_of_forall₂ (related : List.Forall₂ R l others) {b : β}
    (inside : b ∈ others) :
    ∃ a ∈ l, R a b := by
  induction related with
  | nil => contradiction
  | @cons a _ _ _ here _ ih =>
    rcases List.mem_cons.mp inside with rfl | later
    · exact ⟨a, List.mem_cons_self, here⟩
    · obtain ⟨a, listed, relates⟩ := ih later
      exact ⟨a, List.mem_cons_of_mem _ listed, relates⟩

theorem forall_mem_iff_of_forall₂ {p : α → Prop} {q : β → Prop}
    (related : List.Forall₂ R l others) (same : ∀ a b, R a b → (p a ↔ q b)) :
    (∀ a ∈ l, p a) ↔ ∀ b ∈ others, q b := by
  induction related with
  | nil => simp
  | cons here _ ih => simp only [List.forall_mem_cons, same _ _ here, ih]

end

/-- Identifiers of type nodes are taken from the supply, and stand for the same in all modules. Of the
latter only what counts here: a pointer without contents is one in every module that has it. -/
structure Binary.Identified (b : Binary) (supply : Supply) : Prop where
  below : ∀ m ∈ b.modules, ∀ id, m.types.contains id → id.value < supply.next
  shared : ∀ m ∈ b.modules, ∀ other ∈ b.modules, ∀ id, m.types.Whole id →
    other.types.contains id → other.types.Whole id

def CodeModule.Recommented (m other : CodeModule) : Prop :=
  ∃ comments, other = { m with comments := comments }

private theorem Arena.verdictTo_comment (a : Arena) (m : CodeModule)
    (comments : OrdMap Position String)
    (depth : Nat) (ref : Option Handle) :
    a.verdictTo { m with comments := comments } depth ref = a.verdictTo m depth ref := by
  induction depth generalizing ref with
  | zero => rfl
  | succ depth ih =>
    unfold verdictTo
    simp only [ih]
    rfl

namespace Inferred
variable {inferred : Inferred} {m : CodeModule}

/-- None of the types that functions of the module get is refused when it is read. -/
def Readable (inferred : Inferred) (m : CodeModule) : Prop :=
  ∀ entry ∈ (inferred.assigned m).entries, inferred.verdict m entry.2 ≠ .refused

instance : Decidable (inferred.Readable m) :=
  inferInstanceAs (Decidable (∀ entry ∈ (inferred.assigned m).entries, _ ≠ _))

theorem readable_iff : inferred.Readable m ↔ ∀ id h, (inferred.assigned m).get? id = some h →
    inferred.verdict m h ≠ .refused := by
  constructor
  · exact fun readable id h given => readable (id, h) ((OrdMap.get?_eq_some_iff _ _ _).mp given)
  · exact fun good entry listed => good entry.1 entry.2 ((OrdMap.get?_eq_some_iff _ _ _).mpr listed)

private theorem readable_comment (comments : OrdMap Position String) :
    inferred.Readable { m with comments := comments } ↔ inferred.Readable m := by
  have verdict (h : Handle) : inferred.verdict { m with comments := comments } h =
      inferred.verdict m h := by
    simp only [Inferred.verdict, funext (Arena.verdictTo_comment _ _ comments _)]
  unfold Readable
  simp only [verdict]
  rfl

end Inferred

/-- The types are those of functions, and what they seal are pointers without contents of some
module. -/
structure Inferred.DrawnFrom (inferred : Inferred) (b : Binary) : Prop where
  grounded : inferred.arena.Grounded fun origin => ∃ m ∈ b.modules, m.types.Whole origin
  functions : ∀ v h, inferred.roots.get? v = some h →
    ∃ ret params, inferred.arena.get? h = some (.function ret params)

private theorem Sketches.drawnFrom_infer {b : Binary} (sketches : Sketches) (target : Target)
    (sealing : ∀ origin, target.sealedTypes.Marks origin → ∃ m ∈ b.modules, m.types.Whole origin) :
    (sketches.infer target).DrawnFrom b := by
  have stable (_ : TypeVar) (a b : Arena) (h : Handle) (extended : a.Extends b)
      (found : ∃ ret params, a.get? h = some (.function ret params)) :
      ∃ ret params, b.get? h = some (.function ret params) := by
    obtain ⟨ret, params, found⟩ := found
    exact ⟨ret, params, extended h _ found⟩
  obtain ⟨grounded, roots, -⟩ := @infer_roots _ sketches target stable
    fun entry _ arena => ⟨_, _, Arena.push_self⟩
  exact ⟨grounded.mono sealing, fun v h given => (roots v h given).2⟩

namespace Recorder
variable {inferred : Inferred} {start : Nat} {m written : CodeModule}

/-- Types have been recorded in the module, with identifiers from a number on. -/
def Recorded (inferred : Inferred) (start : Nat) (m written : CodeModule) : Prop :=
  ∃ supply s, start ≤ supply.next ∧
    recordInferred inferred { target := m, supply := supply } = .ok () s ∧ written = s.target

theorem OriginsBelow.mono {arena : Arena} {base above : Nat} (below : OriginsBelow arena base)
    (le : base ≤ above) : OriginsBelow arena above :=
  fun h origin found => Nat.lt_of_lt_of_le (below h origin found) le

theorem Recorded.resembles (recorded : Recorded inferred start m written)
    (ids : ∀ id, m.types.contains id → id.value < start)
    (below : OriginsBelow inferred.arena start) : m.Resembles written := by
  obtain ⟨supply, s, le, done, rfl⟩ := recorded
  obtain ⟨only, -⟩ := recordInferred_only
    (fun id inside => Nat.lt_of_lt_of_le (ids id inside) le) (below.mono le) done
  rw [only]
  exact ⟨rfl, rfl, rfl⟩

end Recorder

namespace Inferred.DrawnFrom
variable {inferred : Inferred} {b : Binary} {supply : Supply} (drawn : inferred.DrawnFrom b)
  (identified : b.Identified supply)
include drawn identified

private theorem originsBelow : Recorder.OriginsBelow inferred.arena supply.next := by
  intro h origin found
  obtain ⟨m, listed, whole⟩ := (drawn.grounded h _ found).2.2 origin rfl
  exact identified.below m listed origin ((OrdMap.contains_iff _ _).mpr whole.present)

/-- A module in which the types have been recorded can be read again just if it may be, whatever
comments it had and has. -/
theorem readPrototypes_iff {m other written last : CodeModule} (listed : m ∈ b.modules)
    (before : m.Recommented other) (recorded : Recorder.Recorded inferred supply.next other written)
    (after : written.Recommented last) :
    ((∃ all s, last.readPrototypes {} = .ok all s) ↔ inferred.Readable m) ∧
      ∀ e s, last.readPrototypes {} = .error e s → e.IsRefusal := by
  obtain ⟨comments, rfl⟩ := before
  obtain ⟨later, s, le, done, rfl⟩ := recorded
  obtain ⟨comments', rfl⟩ := after
  rw [← Inferred.readable_comment comments, Inferred.readable_iff]
  refine Recorder.recordInferred_readPrototypes ?_ drawn.grounded ?_ ?_ drawn.functions done _
  · exact fun id inside => Nat.lt_of_lt_of_le (identified.below m listed id inside) le
  · intro origin marked
    obtain ⟨owner, owned, whole⟩ := marked
    have taken := identified.below owner owned origin ((OrdMap.contains_iff _ _).mpr whole.present)
    exact Nat.lt_of_lt_of_le taken le
  · intro origin marked inside
    obtain ⟨owner, owned, whole⟩ := marked
    exact identified.shared owner owned m listed origin whole inside

end Inferred.DrawnFrom

namespace Recovery
variable {inferred : Inferred} {r t u : Recovery}

theorem Commented.modules {inspection : Inspection} {comments : OrdMap Position String}
    (commented : Commented inspection r t comments) :
    List.Forall₂ CodeModule.Recommented r.binary.modules t.binary.modules := by
  have same (modules : List CodeModule) : List.Forall₂ CodeModule.Recommented modules modules :=
    List.forall₂_same.mpr fun m _ => ⟨m.comments, rfl⟩
  rw [commented.binary]
  split
  · rw [setComments]
    split
    · exact same _
    next m rest modules =>
      rw [modules]
      exact .cons ⟨comments, rfl⟩ (same rest)
  · exact same _

theorem recordModules_ok {modules written : List CodeModule} {start : Nat} {supply after : Supply}
    {notices : List Notice} (le : start ≤ supply.next)
    (ids : ∀ m ∈ modules, ∀ id, m.types.contains id → id.value < start)
    (below : Recorder.OriginsBelow inferred.arena start)
    (done : recordModules inferred supply modules = (.ok (), written, after, notices)) :
    List.Forall₂ (Recorder.Recorded inferred start) modules written := by
  induction modules generalizing supply written notices with
  | nil =>
    obtain ⟨-, rest⟩ := Prod.mk.inj done
    rw [← (Prod.mk.inj rest).1]
    exact .nil
  | cons m rest ih =>
    obtain ⟨here, later⟩ := List.forall_mem_cons.mp ids
    rw [recordModules] at done
    cases recorded : Recorder.recordInferred inferred { target := m, supply := supply } with
    | error e s =>
      rw [recorded] at done
      simp at done
    | ok _ s =>
      -- The supply only grows, so that the identifiers of later modules stay below it.
      obtain ⟨-, grows⟩ := Recorder.recordInferred_only
        (fun id inside => Nat.lt_of_lt_of_le (here id inside) le) (below.mono le) recorded
      rw [recorded] at done
      rcases recorded' : recordModules inferred s.supply rest with ⟨result, others, _, _⟩
      simp only [recorded', Prod.mk.injEq] at done
      obtain ⟨rfl, rfl, rfl, -⟩ := done
      exact .cons ⟨supply, s, le, recorded, rfl⟩ (ih (Nat.le_trans le grows) later recorded')

theorem write_ok {start : Nat} (le : start ≤ r.supply.next)
    (ids : ∀ m ∈ r.binary.modules, ∀ id, m.types.contains id → id.value < start)
    (below : Recorder.OriginsBelow inferred.arena start) (done : write inferred r = .ok () t) :
    List.Forall₂ (Recorder.Recorded inferred start) r.binary.modules t.binary.modules := by
  unfold write at done
  rcases recorded : recordModules inferred r.supply r.binary.modules with
    ⟨result, written, after, notices⟩
  simp only [recorded] at done
  split at done
  · obtain ⟨-, rfl⟩ := EStateM.Result.ok.inj done
    exact recordModules_ok le ids below recorded
  · contradiction

private theorem gives_infer_of_no_modules {settings : Settings} {engine : Engine} {solver : Solver}
    {inspection : Inspection} (none : r.binary.modules = []) :
    Gives (infer settings engine solver inspection) r fun _ t => r.Alike t := by
  refine gives_get.bind fun state u same => ?_
  rw [same.1, same.2, none]
  exact (gives_note _).bind fun _ t alike => .pure alike

theorem infer_drawn {engine : Engine} {inspection : Inspection}
    (some_module : r.binary.modules ≠ [])
    (done : infer {} engine closureSolver inspection r = .ok inferred t) :
    inferred.DrawnFrom r.binary ∧ t.supply = r.supply ∧
      List.Forall₂ CodeModule.Recommented r.binary.modules t.binary.modules ∧
      ∃ words generated x, Reaches engine inspection r words generated x := by
  obtain ⟨words, generated, x, sketches, sealedTypes, reaches, binary, supply, rfl, sealing⟩ :=
    infer_ok some_module done
  obtain ⟨comments, commented⟩ := reaches.commented
  refine ⟨sketches.drawnFrom_infer _ fun origin marks => ?_, supply.trans commented.supply,
    binary ▸ commented.modules, words, generated, x, reaches⟩
  obtain ⟨other, listed, whole⟩ := sealing origin marks
  obtain ⟨m, listed', _, rfl⟩ := exists_mem_of_forall₂ commented.modules listed
  exact ⟨m, listed', whole⟩

section
variable {engine : Engine} {inspection : Inspection} {again : Recovery}

theorem reaches_again (fixed : engine.Fixed) (identified : r.binary.Identified r.supply)
    (some_module : r.binary.modules ≠ [])
    (done : infer {} engine closureSolver inspection r = .ok inferred t)
    (written : write inferred t = .ok () u) (same : again.binary = u.binary) :
    ∃ words generated z, Reaches engine inspection again words generated z ∧
      List.Forall₂ (fun m last => m ∈ r.binary.modules ∧ ∃ other written, m.Recommented other ∧
        Recorder.Recorded inferred r.supply.next other written ∧ written.Recommented last)
        r.binary.modules z.binary.modules := by
  obtain ⟨drawn, supply, before, words, generated, x, reaches⟩ := infer_drawn some_module done
  have below := drawn.originsBelow identified
  have ids (other : CodeModule) (listed : other ∈ t.binary.modules) (id : NodeId)
      (inside : other.types.contains id) : id.value < r.supply.next := by
    obtain ⟨m, listed', _, rfl⟩ := exists_mem_of_forall₂ before listed
    exact identified.below m listed' id inside
  have recorded := write_ok (Nat.le_of_eq (by rw [supply])) ids below written
  have given := (List.forall₂_and_left _ _).mpr
    ⟨fun m (listed : m ∈ r.binary.modules) => listed, before⟩
  rw [← same] at recorded
  have resembles : List.Forall₂ CodeModule.Resembles r.binary.modules again.binary.modules := by
    refine forall₂_comp (fun m other last here there => ?_) given recorded
    obtain ⟨listed, _, rfl⟩ := here
    obtain ⟨isa, inputs, outputs⟩ := there.resembles (identified.below m listed) below
    exact ⟨isa, inputs, outputs⟩
  obtain ⟨z, reaches'⟩ := reaches.of_resembles fixed resembles
  obtain ⟨comments, commented⟩ := reaches'.commented
  have left : List.Forall₂ (fun other last => ∃ written,
      Recorder.Recorded inferred r.supply.next other written ∧ written.Recommented last)
      t.binary.modules z.binary.modules :=
    forall₂_comp (fun _ written _ first second => ⟨written, first, second⟩) recorded
      commented.modules
  refine ⟨words, generated, z, reaches', ?_⟩
  refine forall₂_comp (fun m other last here there => ?_) given left
  obtain ⟨written, first, second⟩ := there
  exact ⟨here.1, other, written, here.2, first, second⟩

/-- A run over a binary in which another one with the same answers of the engine has written its
types. It ends well just if none of these types is refused when prototypes are read, and otherwise
with the error for such a type. -/
theorem infer_again_iff (fixed : engine.Fixed) (identified : r.binary.Identified r.supply)
    (done : infer {} engine closureSolver inspection r = .ok inferred t)
    (written : write inferred t = .ok () u) (same : again.binary = u.binary) :
    ((∃ found v, infer {} engine closureSolver inspection again = .ok found v) ↔
      ∀ m ∈ r.binary.modules, inferred.Readable m) ∧
    ∀ e v, infer {} engine closureSolver inspection again = .error e v → e.IsRefusal := by
  by_cases none : r.binary.modules = []
  · have none' : again.binary.modules = [] := by
      have alike := (gives_infer_of_no_modules none).holds done
      rw [same]
      unfold write at written
      simp only [alike.binary, none, recordModules] at written
      obtain ⟨-, rfl⟩ := EStateM.Result.ok.inj written
      rfl
    obtain ⟨found, v, done', -⟩ := gives_infer_of_no_modules (r := again) none'
    rw [done']
    exact ⟨iff_of_true ⟨found, v, rfl⟩ (by simp [none]), by simp⟩
  · obtain ⟨drawn, -⟩ := infer_drawn none done
    obtain ⟨words, generated, z, reaches, related⟩ :=
      reaches_again fixed identified none done written same
    have rereads : List.Forall₂ (fun m last => ((∃ all s, last.readPrototypes {} = .ok all s) ↔
        inferred.Readable m) ∧ ∀ e s, last.readPrototypes {} = .error e s → e.IsRefusal)
        r.binary.modules z.binary.modules := by
      apply related.imp
      intro m last here
      obtain ⟨listed, other, written, before, recorded, after⟩ := here
      exact drawn.readPrototypes_iff identified listed before recorded after
    obtain ⟨reads, fails⟩ := reaches.infer_iff
    refine ⟨reads.trans ?_, fun e v failed => ?_⟩
    · exact (forall_mem_iff_of_forall₂ rereads fun m last here => here.1.symm).symm
    · obtain ⟨last, listed, s, stopped⟩ := fails e v failed
      obtain ⟨m, -, here⟩ := exists_mem_of_forall₂ rereads listed
      exact here.2 e s stopped

end

private theorem gives_write_of_recorded
    (recorded : (recordModules inferred r.supply r.binary.modules).1 = .ok ()) :
    Gives (write inferred) r fun _ t => t.binary = { r.binary with
      modules := (recordModules inferred r.supply r.binary.modules).2.1 } := by
  unfold Gives write
  simp only [recorded]
  exact ⟨_, _, rfl, rfl⟩

def unaryModule (argument : TypeNode) : CodeModule where
  name := "m"
  isa := .x64
  functions := [⟨⟨1⟩, ["f"], ∅, ∅⟩]
  types := OrdMap.ofList [(⟨2⟩, argument), (⟨3⟩, .function none [some ⟨2⟩])]
  prototypes := OrdMap.ofList [(⟨1⟩, ⟨3⟩)]

def unary (argument : TypeNode) : Recovery := start { modules := [unaryModule argument] } ⟨4⟩ false

private theorem unary_identified (argument : TypeNode) :
    (unary argument).binary.Identified (unary argument).supply := by
  refine ⟨fun m listed id inside => ?_, fun m listed other listed' id whole inside => ?_⟩
  · obtain rfl : m = unaryModule argument := List.mem_singleton.mp listed
    obtain ⟨node, found⟩ := (OrdMap.contains_iff _ _).mp inside
    have distinct : ([(⟨2⟩, argument), (⟨3⟩, TypeNode.function none [some ⟨2⟩])].map
        (Prod.fst : NodeId × TypeNode → NodeId)).Nodup := show [(⟨2⟩ : NodeId), ⟨3⟩].Nodup by decide
    have known := (OrdMap.get?_ofList _ distinct id node).mp found
    rcases List.mem_pair.mp known with same | same
    · rw [(Prod.mk.inj same).1]
      exact show 2 < 4 by decide
    · rw [(Prod.mk.inj same).1]
      exact show 3 < 4 by decide
  · obtain rfl : m = unaryModule argument := List.mem_singleton.mp listed
    obtain rfl : other = unaryModule argument := List.mem_singleton.mp listed'
    exact whole

/-- A function of an argument of an arena, which comes right before it. -/
def unaryTypes (nodes : Array Concrete) : Inferred where
  arena := ⟨nodes.push (.function none [some (nodes.size - 1)])⟩
  roots := OrdMap.ofList [(⟨"f", []⟩, nodes.size)]

/-- All that is known of a function is what lies above its only argument. -/
def unaryProblem (l : AtomLattice) (upper : TypeVar) : Problem where
  lattice := l
  constraints := OrdMap.ofList [("f", OrdSet.ofList [⟨⟨"f", [.input 0]⟩, upper⟩])]
  calls := OrdMap.ofList [("f", ∅)]

private theorem unaryProblem_visible (l : AtomLattice) (upper : TypeVar) :
    (unaryProblem l upper).visible "f" = OrdSet.ofList [⟨⟨"f", [.input 0]⟩, upper⟩] := by
  have known : (unaryProblem l upper).constraints.get? "f" =
      some (OrdSet.ofList [⟨⟨"f", [.input 0]⟩, upper⟩]) :=
    (OrdMap.get?_insert ..).trans (if_pos rfl)
  rw [Problem.visible_of_no_calls rfl, Problem.ownConstraints, known, Option.getD_some]

private theorem unaryProblem_sketches (l : AtomLattice) (upper : TypeVar) :
    (unaryProblem l upper).solveByClosure.sketches = OrdMap.ofList [(⟨"f", []⟩,
      (unaryProblem l upper).sketch "f" (OrdSet.ofList [⟨⟨"f", [.input 0]⟩, upper⟩]))] := by
  rw [← Problem.consequences_of_single (unaryProblem_visible l upper)]
  rfl

private theorem gives_infer_sealed : Gives (infer {} (Engine.ofAnswers ∅) closureSolver {})
    (unary (.pointer none)) fun inferred t => t.supply = ⟨4⟩ ∧
      t.binary = { modules := [unaryModule (.pointer none)] } ∧
      inferred = unaryTypes #[.sealed ⟨2⟩, .pointer (some 0) 8] := by
  have reads (comments : OrdMap Position String) :
      ({ unaryModule (.pointer none) with comments := comments } : CodeModule).readPrototypes {} =
        .ok (OrdMap.ofList [("f", OrdSet.ofList [⟨⟨"f", [.input 0]⟩, Reading.sealedAtom ⟨2⟩⟩])])
          { sealedPointers := OrdSet.ofList [⟨2⟩] } := rfl
  have given := gives_infer_of_reads (r := unary (.pointer none)) {} Engine.silent_ofAnswers rfl rfl
    rfl fun comments => ⟨_, _, reads comments⟩
  refine given.mono fun inferred t given => ?_
  obtain ⟨supply, still, comments, all, s, -, read, rfl⟩ := given
  obtain ⟨rfl, rfl⟩ := EStateM.Result.ok.inj ((reads comments).symm.trans read)
  refine ⟨supply, still rfl, ?_⟩
  show Sketches.infer (unaryProblem _ (Reading.sealedAtom ⟨2⟩)).solveByClosure.sketches _ = _
  rw [unaryProblem_sketches, Problem.sketch, Problem.sketchVariables, unaryProblem_visible]
  with_unfolding_all rfl

theorem infer_again_iff_sealed :
    (unary (.pointer none)).binary.Identified (unary (.pointer none)).supply ∧
    ∃ inferred t u,
      infer {} (Engine.ofAnswers ∅) closureSolver {} (unary (.pointer none)) = .ok inferred t ∧
      write inferred t = .ok () u ∧
      ∃ found v, infer {} (Engine.ofAnswers ∅) closureSolver {} u = .ok found v := by
  have identified := unary_identified (.pointer none)
  obtain ⟨inferred, t, done, supply, binary, drawn⟩ := gives_infer_sealed
  have recorded : (recordModules inferred t.supply t.binary.modules).1 = .ok () := by
    rw [supply, binary, drawn]
    rfl
  obtain ⟨_, u, written, -⟩ := gives_write_of_recorded recorded
  refine ⟨identified, inferred, t, u, done, written, ?_⟩
  apply (infer_again_iff (Engine.fixed_ofAnswers ∅) identified done written rfl).1.mpr
  rw [drawn]
  decide

def untypedModule : CodeModule where
  name := "m"
  isa := .x64
  functions := [⟨⟨1⟩, ["f"], ∅, ∅⟩]

def untyped : Recovery := start { modules := [untypedModule] } ⟨2⟩ false

private theorem untyped_identified : untyped.binary.Identified untyped.supply := by
  have none (m : CodeModule) (listed : m ∈ untyped.binary.modules) (id : NodeId) :
      ¬ m.types.contains id := by
    obtain rfl : m = untypedModule := List.mem_singleton.mp listed
    simp [untypedModule, OrdMap.contains]
  exact ⟨fun m listed id inside => absurd inside (none m listed id),
    fun _ _ other listed id _ inside => absurd inside (none other listed id)⟩

/-- That the function has an argument is found out, and nothing about its type. -/
def argumentFound : Engine :=
  .ofAnswers (OrdMap.ofList [("subtype_constraint", [["f", "f.in_0 ⊑ x", ""]])])

/-- An argument without a type becomes an array of bytes. -/
theorem gives_infer_untyped : Gives (infer {} argumentFound closureSolver {}) untyped
    fun inferred t => t.supply = ⟨2⟩ ∧ t.binary = { modules := [untypedModule] } ∧
      inferred = unaryTypes #[.char 1, .array (some 0) 8] := by
  have reads (comments : OrdMap Position String) :
      ({ untypedModule with comments := comments } : CodeModule).readPrototypes {} = .ok ∅ {} := rfl
  have answered (facts : Folder) :
      argumentFound facts [Relations.constraintRelation, Relations.commentRelation] =
        .ok (OrdMap.ofList [(Relations.constraintRelation, [["f", "f.in_0 ⊑ x", ""]]),
          (Relations.commentRelation, [])]) := rfl
  have parsed : Relations.constraints [["f", "f.in_0 ⊑ x", ""]] =
      .ok (OrdMap.ofList [("f", OrdSet.ofList [⟨⟨"f", [.input 0]⟩, ⟨"x", []⟩⟩])]) := by cbv
  have given := gives_infer_of_answer (r := untyped) {} rfl rfl rfl (answered _) rfl parsed
    fun comments => ⟨∅, {}, reads comments⟩
  refine given.mono fun inferred t given => ?_
  obtain ⟨supply, still, comments, all, s, -, read, rfl⟩ := given
  obtain ⟨rfl, rfl⟩ := EStateM.Result.ok.inj ((reads comments).symm.trans read)
  refine ⟨supply, still rfl, ?_⟩
  show Sketches.infer (unaryProblem _ ⟨"x", []⟩).solveByClosure.sketches _ = _
  rw [unaryProblem_sketches, Problem.sketch, Problem.sketchVariables, unaryProblem_visible]
  with_unfolding_all rfl

def bytesModule : CodeModule :=
  { untypedModule with
    types := OrdMap.ofList [(⟨2⟩, .function (some ⟨3⟩) [some ⟨4⟩]), (⟨3⟩, .unknown 0),
      (⟨4⟩, .array ⟨5⟩ 8), (⟨5⟩, .char 1)]
    prototypes := OrdMap.ofList [(⟨1⟩, ⟨2⟩)] }

theorem infer_again_refused :
    argumentFound.Fixed ∧ untyped.binary.Identified untyped.supply ∧
    ∃ inferred t u v,
      infer {} argumentFound closureSolver {} untyped = .ok inferred t ∧
      write inferred t = .ok () u ∧
      infer {} argumentFound closureSolver {} u = .error (.byValueAggregate "array" ⟨4⟩) v := by
  have fixed : argumentFound.Fixed := Engine.fixed_ofAnswers _
  obtain ⟨inferred, t, done, supply, binary, drawn⟩ := gives_infer_untyped
  have recorded : (recordModules inferred t.supply t.binary.modules).1 = .ok () := by
    rw [supply, binary, drawn]
    rfl
  have modules : (recordModules inferred t.supply t.binary.modules).2.1 = [bytesModule] := by
    rw [supply, binary, drawn]
    rfl
  obtain ⟨_, u, written, after⟩ := gives_write_of_recorded recorded
  rw [modules] at after
  obtain ⟨-, -, -, words, generated, x, reaches⟩ := infer_drawn (by simp [untyped, start]) done
  have resembles : List.Forall₂ CodeModule.Resembles untyped.binary.modules
      u.binary.modules := by
    rw [after]
    exact .cons ⟨rfl, rfl, rfl⟩ .nil
  obtain ⟨z, reaches⟩ := reaches.of_resembles fixed resembles
  obtain ⟨_, commented⟩ := reaches.commented
  have single : z.binary.modules = [bytesModule] := by
    rw [commented.of_disabled rfl, after]
  have refused : bytesModule.readPrototypes {} = .error (.byValueAggregate "array" ⟨4⟩) {} := rfl
  obtain ⟨m, listed, e, s, failed, v, stopped, -⟩ :=
    reaches.fails ⟨_, single ▸ List.mem_singleton_self _, _, _, refused⟩
  rw [single] at listed
  obtain rfl := List.mem_singleton.mp listed
  obtain ⟨rfl, -⟩ := EStateM.Result.error.inj (refused.symm.trans failed)
  exact ⟨fixed, untyped_identified, inferred, t, u, v, done, written, stopped⟩

end Recovery
end TypeRecovery
