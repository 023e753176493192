import TypeRecovery.Proofs.Rules.Results
import TypeRecovery.Proofs.Stateful
import TypeRecovery.Recovery

/-! Reading what the rules found. All rows are read before anything is written, so a failure leaves
the binary as it was, and a success changes at most the comments of the first module. What is read
depends on which rows there are, and neither on their order nor on how often they come. -/
namespace TypeRecovery
namespace Recovery
variable {inspection : Inspection} {relations other : Relations} {r : Recovery}

private theorem adopt_ok {α : Type} (a : α) (notices : List Notice) :
    adopt (.ok a) notices r = .ok a { r with notices := r.notices ++ notices } := rfl

private theorem adopt_error {α : Type} (e : Error) (notices : List Notice) :
    (adopt (.error e) notices : Run α) r =
      .error e { r with notices := r.notices ++ notices } := rfl

def commentsFor (inspection : Inspection) (relations : Relations) (b : Binary) :
    Except Error (OrdMap Position String) :=
  match b.modules with
  | [] => .ok ∅
  | m :: _ => Relations.comments m (commentOutcomes inspection relations)

def constraintsIn (relations : Relations) : Except Error (OrdMap String ConstraintSet) :=
  Relations.constraints (relations.rows Relations.constraintRelation)

private theorem readComments_eq (inspection : Inspection) (relations : Relations) (r : Recovery) :
    ∃ notices, readComments inspection relations r =
      match commentsFor inspection relations r.binary with
      | .error e => .error e { r with notices := notices }
      | .ok found => .ok found { r with notices := notices } := by
  have started : readComments inspection relations r = (match r.binary.modules with
      | [] => pure ∅
      | m :: _ => adopt (Relations.comments m (commentOutcomes inspection relations))
          (Relations.commentNotices m (commentOutcomes inspection relations)) : Run _) r := rfl
  rw [started]
  unfold commentsFor
  cases r.binary.modules with
  | nil => exact ⟨r.notices, rfl⟩
  | cons m rest =>
    refine ⟨r.notices ++ Relations.commentNotices m (commentOutcomes inspection relations), ?_⟩
    dsimp only
    cases Relations.comments m (commentOutcomes inspection relations) with
    | error e => rw [adopt_error]
    | ok found => rw [adopt_ok]

theorem readResults_eq (inspection : Inspection) (relations : Relations) (r : Recovery) :
    ∃ notices, readResults inspection relations r =
      match commentsFor inspection relations r.binary, constraintsIn relations with
      | .error e, _ => .error e { r with notices := notices }
      | .ok _, .error e => .error e { r with notices := notices }
      | .ok comments, .ok constraints => .ok constraints
          { r with
            binary := if inspection.enabled then setComments comments r.binary else r.binary
            notices := notices } := by
  obtain ⟨noted, read⟩ := readComments_eq inspection relations r
  simp only [readResults, bind, EStateM.bind, read]
  cases commentsFor inspection relations r.binary with
  | error e => exact ⟨noted, rfl⟩
  | ok found =>
    unfold constraintsIn Relations.rows
    dsimp only
    cases Relations.constraints ((relations.get? Relations.constraintRelation).getD []) with
    | error e => exact ⟨_, rfl⟩
    | ok constraints =>
      rw [adopt_ok]
      cases enabled : inspection.enabled with
      | false => exact ⟨_, rfl⟩
      | true => exact ⟨_, rfl⟩

def results? (inspection : Inspection) (relations : Relations) (b : Binary) :
    Option (OrdMap Position String × OrdMap String ConstraintSet) :=
  (commentsFor inspection relations b).toOption.bind fun comments =>
    (constraintsIn relations).toOption.map fun constraints => (comments, constraints)

theorem results?_eq_some_iff {b : Binary} {comments : OrdMap Position String}
    {constraints : OrdMap String ConstraintSet} :
    results? inspection relations b = some (comments, constraints) ↔
      commentsFor inspection relations b = .ok comments ∧ constraintsIn relations = .ok constraints := by
  simp only [results?, Option.bind_eq_some_iff, Option.map_eq_some_iff, toOption_eq_some_iff,
    Prod.mk.injEq]
  constructor
  · rintro ⟨_, commented, _, parsed, rfl, rfl⟩
    exact ⟨commented, parsed⟩
  · intro read
    exact ⟨comments, read.1, constraints, read.2, rfl, rfl⟩

private theorem readResults_of_none (bad : results? inspection relations r.binary = none) :
    ∃ e t, readResults inspection relations r = .error e t ∧ t.binary = r.binary := by
  obtain ⟨notices, outcome⟩ := readResults_eq inspection relations r
  rw [outcome]
  cases commented : commentsFor inspection relations r.binary with
  | error e => exact ⟨e, _, rfl, rfl⟩
  | ok comments =>
    cases parsed : constraintsIn relations with
    | error e => exact ⟨e, _, rfl, rfl⟩
    | ok constraints =>
      rw [results?_eq_some_iff.mpr ⟨commented, parsed⟩] at bad
      contradiction

private theorem readResults_of_some {comments : OrdMap Position String}
    {constraints : OrdMap String ConstraintSet}
    (good : results? inspection relations r.binary = some (comments, constraints)) :
    ∃ t, readResults inspection relations r = .ok constraints t ∧
      t.binary = if inspection.enabled then setComments comments r.binary else r.binary := by
  obtain ⟨notices, outcome⟩ := readResults_eq inspection relations r
  obtain ⟨commented, parsed⟩ := results?_eq_some_iff.mp good
  rw [outcome, commented, parsed]
  exact ⟨_, rfl, rfl⟩

theorem mem_commentOutcomes {outcome : Except Error (Option (Nat × String))} :
    outcome ∈ commentOutcomes inspection relations ↔ ∃ categories,
      inspection.categories = some categories ∧
      ∃ row ∈ relations.rows Relations.commentRelation, Relations.commentOf categories row = outcome := by
  unfold commentOutcomes
  cases inspection.categories with
  | none => simp
  | some categories => simp [Relations.rows]

private theorem results?_congr (b : Binary)
    (constraints : ∀ row, row ∈ relations.rows Relations.constraintRelation ↔
      row ∈ other.rows Relations.constraintRelation)
    (comments : ∀ row, row ∈ relations.rows Relations.commentRelation ↔
      row ∈ other.rows Relations.commentRelation) :
    results? inspection relations b = results? inspection other b := by
  have commented : (commentsFor inspection relations b).toOption =
      (commentsFor inspection other b).toOption := by
    unfold commentsFor
    cases b.modules with
    | nil => rfl
    | cons m rest =>
      apply Relations.comments_congr
      intro outcome
      simp only [mem_commentOutcomes, comments]
  have parsed : (constraintsIn relations).toOption = (constraintsIn other).toOption :=
    Relations.constraints_congr constraints
  rw [results?, results?, commented, parsed]

/-- Relations with the same rows, in whatever order and number, are both refused, or they give the same
constraints and leave the same binary. -/
theorem readResults_same_rows (inspection : Inspection) (r : Recovery)
    (constraints : ∀ row, row ∈ relations.rows Relations.constraintRelation ↔
      row ∈ other.rows Relations.constraintRelation)
    (comments : ∀ row, row ∈ relations.rows Relations.commentRelation ↔
      row ∈ other.rows Relations.commentRelation) :
    (∃ e e' t t', readResults inspection relations r = .error e t ∧
      readResults inspection other r = .error e' t') ∨
    ∃ found t t', readResults inspection relations r = .ok found t ∧
      readResults inspection other r = .ok found t' ∧ t'.binary = t.binary := by
  have same : results? inspection relations r.binary = results? inspection other r.binary :=
    results?_congr r.binary constraints comments
  cases read : results? inspection relations r.binary with
  | none =>
    obtain ⟨e, t, failed, -⟩ := readResults_of_none read
    obtain ⟨e', t', failed', -⟩ := readResults_of_none (same ▸ read)
    exact .inl ⟨e, e', t, t', failed, failed'⟩
  | some found =>
    obtain ⟨t, done, changed⟩ := readResults_of_some read
    obtain ⟨t', done', changed'⟩ := readResults_of_some (same ▸ read)
    exact .inr ⟨found.2, t, t', done, done', changed'.trans changed.symm⟩

def twoBlocks : Recovery where
  binary := { modules := [{
    name := "m"
    isa := .x64
    codeBlocks := .ofList [(⟨1⟩, ⟨4096, 16, []⟩), (⟨2⟩, ⟨4100, 16, []⟩)]
    comments := .ofList [(⟨⟨2⟩, 0⟩, "old")] }] }
  supply := ⟨3⟩
  calls := ∅

def remarkRows : List (List String) :=
  [["4100", "writes ??", "store"], ["+4100", "writes s", "store"], ["4100", "reads", "load", "r0"],
    ["0", "start", "load"], ["9999", "nowhere", "load"], ["?", "", "other"]]

def remarks : Relations :=
  .ofList [(Relations.constraintRelation, [["f", "f.in_0 ⊑ int32", ""], ["f", "f.out ⊑ bool", ""]]),
    (Relations.commentRelation, remarkRows)]

/-- The same rows the other way round, with some of them again. -/
def remarksAgain : Relations :=
  .ofList [(Relations.constraintRelation, [["f", "f.out ⊑ bool", ""], ["f", "f.in_0 ⊑ int32", ""],
      ["f", "f.out ⊑ bool", ""]]),
    (Relations.commentRelation, remarkRows.reverse ++ remarkRows.take 2)]

def inspectAccesses : Inspection := ⟨true, some ["load", "store"]⟩

theorem readResults_same_rows_again :
    (∀ row, row ∈ remarks.rows Relations.constraintRelation ↔
      row ∈ remarksAgain.rows Relations.constraintRelation) ∧
    (∀ row, row ∈ remarks.rows Relations.commentRelation ↔
      row ∈ remarksAgain.rows Relations.commentRelation) ∧
    ∃ found t t', readResults inspectAccesses remarks twoBlocks = .ok found t ∧
      readResults inspectAccesses remarksAgain twoBlocks = .ok found t' ∧ t'.binary = t.binary := by
  have forth : ∀ name ∈ [Relations.constraintRelation, Relations.commentRelation],
      ∀ row ∈ remarks.rows name, row ∈ remarksAgain.rows name := by decide +kernel
  have back : ∀ name ∈ [Relations.constraintRelation, Relations.commentRelation],
      ∀ row ∈ remarksAgain.rows name, row ∈ remarks.rows name := by decide +kernel
  have same (name : String) (known : name ∈ [Relations.constraintRelation, Relations.commentRelation])
      (row : List String) : row ∈ remarks.rows name ↔ row ∈ remarksAgain.rows name :=
    ⟨forth name known row, back name known row⟩
  have constraints := same Relations.constraintRelation (by simp)
  have comments := same Relations.commentRelation (by simp)
  refine ⟨constraints, comments, ?_⟩
  have good : succeeds (readResults inspectAccesses remarks twoBlocks) := by decide +kernel
  rcases readResults_same_rows inspectAccesses twoBlocks constraints comments with failed | done
  · obtain ⟨e, _, t, _, failed, _⟩ := failed
    rw [failed] at good
    contradiction
  · exact done

theorem commentsFor_gathers {m : CodeModule} {rest : List CodeModule} {b : Binary}
    {table : OrdMap Position String} (modules : b.modules = m :: rest)
    (read : commentsFor inspection relations b = .ok table) :
    Relations.Gathers (fun place text => ∃ row ∈ relations.rows Relations.commentRelation,
      Relations.Remarks m (inspection.categories.getD []) row place text) table := by
  simp only [commentsFor, modules, commentOutcomes] at read
  cases asked : inspection.categories with
  | some categories =>
    rw [asked] at read
    exact Relations.comments_gathers read
  | none =>
    rw [asked] at read
    -- Nothing is said under no category, as if there were no rows.
    have none (row : List String) (place : Position) (text : String) :
        ¬ Relations.Remarks m [] row place text := by
      intro said
      obtain ⟨_, _, _, _, _, _, _, listed, _⟩ := said
      exact List.not_mem_nil listed
    have empty := @Relations.comments_gathers m [] [] table read
    simpa [none] using empty

theorem exists_commentsFor_iff {b : Binary} :
    (∃ table, commentsFor inspection relations b = .ok table) ↔
      (b.modules ≠ [] → ∀ categories, inspection.categories = some categories →
        ∀ row ∈ relations.rows Relations.commentRelation, Relations.IsComment categories row) := by
  unfold commentsFor
  cases b.modules with
  | nil => simp
  | cons m rest =>
    simp only [Relations.exists_comments_iff, mem_commentOutcomes, ← Relations.exists_commentOf_iff]
    constructor
    · intro good _ categories asked row listed
      exact good _ ⟨categories, asked, row, listed, rfl⟩
    · rintro good outcome ⟨categories, asked, row, listed, rfl⟩
      exact good (List.cons_ne_nil m rest) categories asked row listed

/-- All rows are constraints and, as far as comments are asked for, comments. -/
structure Readable (inspection : Inspection) (relations : Relations) (b : Binary) : Prop where
  constraints : ∀ row ∈ relations.rows Relations.constraintRelation, Relations.IsConstraint row
  comments : b.modules ≠ [] → ∀ categories, inspection.categories = some categories →
    ∀ row ∈ relations.rows Relations.commentRelation, Relations.IsComment categories row

theorem exists_results?_iff {b : Binary} :
    (∃ found, results? inspection relations b = some found) ↔ Readable inspection relations b := by
  simp only [Prod.exists, results?_eq_some_iff, exists_and_left, exists_and_right,
    exists_commentsFor_iff, constraintsIn, Relations.exists_constraints_iff]
  exact ⟨fun given => ⟨given.2, given.1⟩, fun given => ⟨given.comments, given.constraints⟩⟩

/-- Results are read just if all rows can be, and otherwise the binary stays as it is. It also stays
without inspection. Under inspection, the first module gets the comments that the rows remark about it,
and that is the only change. -/
theorem readResults_comments (inspection : Inspection) (relations : Relations) (r : Recovery) :
    ((∃ found t, readResults inspection relations r = .ok found t) ↔
      Readable inspection relations r.binary) ∧
    (∀ e t, readResults inspection relations r = .error e t → t.binary = r.binary) ∧
    ∀ found t, readResults inspection relations r = .ok found t →
      (inspection.enabled = false ∨ r.binary.modules = [] → t.binary = r.binary) ∧
      ∀ m rest, inspection.enabled = true → r.binary.modules = m :: rest →
        ∃ table, t.binary = { r.binary with modules := { m with comments := table } :: rest } ∧
          Relations.Gathers (fun place text => ∃ row ∈ relations.rows Relations.commentRelation,
            Relations.Remarks m (inspection.categories.getD []) row place text) table := by
  rw [← exists_results?_iff]
  cases read : results? inspection relations r.binary with
  | none =>
    obtain ⟨e, t, failed, kept⟩ := readResults_of_none read
    rw [failed]
    refine ⟨by simp, ?_, by simp⟩
    rintro _ _ ⟨⟩
    exact kept
  | some results =>
    obtain ⟨comments, constraints⟩ := results
    obtain ⟨t, done, changed⟩ := readResults_of_some read
    rw [done]
    refine ⟨by simp, by simp, ?_⟩
    rintro _ _ ⟨⟩
    refine ⟨fun idle => ?_, fun m rest enabled modules => ⟨comments, ?_, ?_⟩⟩
    · rcases idle with off | none
      · rw [changed, if_neg (by simp [off])]
      · rw [changed, setComments, none, ite_self]
    · rw [changed, if_pos enabled, setComments, modules]
    · exact commentsFor_gathers modules (results?_eq_some_iff.mp read).1

/-- A run that gives the blocks their comments, and one that stops at a row without a category and
keeps the old ones. -/
theorem readResults_comments_twoBlocks :
    (∃ found t, readResults inspectAccesses remarks twoBlocks = .ok found t ∧
      ∀ m rest, twoBlocks.binary.modules = m :: rest →
        ∃ table, t.binary = { twoBlocks.binary with modules := { m with comments := table } :: rest } ∧
          Relations.Gathers (fun place text => ∃ row ∈ remarks.rows Relations.commentRelation,
            Relations.Remarks m ["load", "store"] row place text) table) ∧
    ∃ e t, readResults inspectAccesses (remarks.insert Relations.commentRelation [["4100", "reads"]])
        twoBlocks = .error e t ∧ t.binary = twoBlocks.binary := by
  constructor
  · obtain ⟨-, -, changed⟩ := readResults_comments inspectAccesses remarks twoBlocks
    have good : succeeds (readResults inspectAccesses remarks twoBlocks) := by decide +kernel
    obtain ⟨found, t, done⟩ := exists_eq_ok good
    exact ⟨found, t, done, fun m rest => (changed found t done).2 m rest rfl⟩
  · obtain ⟨-, kept, -⟩ := readResults_comments inspectAccesses
      (remarks.insert Relations.commentRelation [["4100", "reads"]]) twoBlocks
    have bad : succeeds (readResults inspectAccesses
        (remarks.insert Relations.commentRelation [["4100", "reads"]]) twoBlocks) = false := by
      decide +kernel
    cases outcome : readResults inspectAccesses
        (remarks.insert Relations.commentRelation [["4100", "reads"]]) twoBlocks with
    | ok found t =>
      rw [outcome] at bad
      contradiction
    | error e t => exact ⟨e, t, rfl, kept e t outcome⟩

end Recovery
end TypeRecovery
