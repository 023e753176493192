import Mathlib.Algebra.Group.Nat.Defs
import Mathlib.Data.List.Infix
import TypeRecovery.Proofs.Ordered
import TypeRecovery.Proofs.Outcomes
import TypeRecovery.Rules.Results

/-! What the rows of the rules come to. A function has the constraints of its rows, and the comment on
a place joins the texts of the rows about it, so neither depends on the order of rows or on rows that
come again. -/
namespace TypeRecovery

/-- A block covers what lies in it, but one whose end is not below 2^64 covers nothing. -/
theorem CodeBlock.covers_iff {block : CodeBlock} {address : Nat} (start : block.address < 2 ^ 64)
    (size : block.size < 2 ^ 64) : block.covers address ↔ block.address + block.size < 2 ^ 64 ∧
      block.address ≤ address ∧ address < block.address + block.size := by
  simp only [covers, limit, UInt64.toNat_ofNat', Bool.and_eq_true, decide_eq_true_eq]
  by_cases ends : block.address + block.size < 2 ^ 64
  · rw [Nat.mod_eq_of_lt ends]
    exact (and_iff_right ends).symm
  · -- The limit comes out before the start of the block.
    have wrapped : (block.address + block.size) % 2 ^ 64 = block.address + block.size - 2 ^ 64 := by
      rw [Nat.mod_eq_sub_mod (Nat.le_of_not_lt ends), Nat.mod_eq_of_lt (by omega)]
    omega

namespace CodeModule
variable {m : CodeModule} {address : Nat} {place : Position}

/-- The place of an address in the first block that covers it, in the order of identifiers. -/
def Locates (m : CodeModule) (address : Nat) (place : Position) : Prop :=
  ∃ block, m.codeBlocks.get? place.block = some block ∧ block.covers address ∧
    place.displacement = address - block.address ∧
    ∀ id other, m.codeBlocks.get? id = some other → id.value < place.block.value →
      ¬ other.covers address

theorem locate?_eq_some_iff : m.locate? address = some place ↔ m.Locates address place := by
  have first : m.locate? address =
      (m.codeBlocks.entries.find? fun entry => entry.2.covers address).map fun entry =>
        ⟨entry.1, address - entry.2.address⟩ := by
    rw [← List.head?_filter, locate?, blocksOn]
    cases m.codeBlocks.entries.filter fun entry => entry.2.covers address <;> rfl
  rw [first, Option.map_eq_some_iff]
  simp only [List.find?_eq_some_iff_append, Bool.not_eq_true', Prod.exists]
  have increasing := m.codeBlocks.increasing
  constructor
  · intro given
    obtain ⟨id, block, ⟨covers, before, after, split, none⟩, rfl⟩ := given
    rw [split] at increasing
    refine ⟨block, (OrdMap.get?_eq_some_iff _ _ _).mpr ?_, covers, rfl, fun other found known less => ?_⟩
    · rw [split]
      exact List.mem_append_right _ List.mem_cons_self
    · -- A block with a smaller identifier stands before the one that was found.
      have listed := (OrdMap.get?_eq_some_iff _ _ _).mp known
      rw [split] at listed
      rcases List.mem_append.mp listed with early | late
      · exact Bool.eq_false_iff.mp (none _ early)
      · rcases List.mem_cons.mp late with same | later
        · obtain ⟨rfl, rfl⟩ := Prod.mk.inj same
          exact absurd less (Nat.lt_irrefl _)
        · have sorted := (List.pairwise_append.mp increasing).2.1
          have larger := (List.pairwise_cons.mp sorted).1 _ later
          exact absurd less (Nat.lt_asymm (Nat.compare_eq_lt.mp larger))
  · intro given
    obtain ⟨block, known, covers, displaced, none⟩ := given
    obtain ⟨before, after, split⟩ := List.append_of_mem ((OrdMap.get?_eq_some_iff _ _ _).mp known)
    refine ⟨place.block, block, ⟨covers, before, after, split, fun entry early => ?_⟩, ?_⟩
    · rw [split] at increasing
      have smaller := (List.pairwise_append.mp increasing).2.2 _ early _ List.mem_cons_self
      have listed : entry ∈ m.codeBlocks.entries := split ▸ List.mem_append_left _ early
      apply Bool.eq_false_iff.mpr
      exact none entry.1 entry.2 ((OrdMap.get?_eq_some_iff _ _ _).mpr listed)
        (Nat.compare_eq_lt.mp smaller)
    · rw [← displaced]

end CodeModule

namespace Relations

def rows (relations : Relations) (name : String) : List (List String) :=
  (relations.get? name).getD []

/-- A text and what it is with its marks filled in, the leftmost one first. Marks do not overlap. -/
inductive Filled : List Char → List Char → Prop where
  | plain {text : List Char} (clean : ¬ ['?', '?'] <:+: text) : Filled text text
  | mark {before rest filled : List Char} (clean : ¬ ['?', '?'] <:+: before ++ ['?'])
    (later : Filled rest filled) :
    Filled (before ++ '?' :: '?' :: rest) (before ++ 's' :: filled)

section
variable {c : Char} {text before rest filled : List Char}

/-- Whether a mark comes first is settled by what stands up to the next question mark. -/
theorem mark_prefix_iff : ['?', '?'] <+: c :: (before ++ '?' :: rest) ↔
    ['?', '?'] <+: c :: (before ++ ['?']) := by
  rw [List.cons_prefix_cons, List.cons_prefix_cons]
  cases before <;> simp [List.cons_prefix_cons]

private theorem fillMarks_cons (single : ¬ ['?', '?'] <+: c :: rest) :
    fillMarks (c :: rest) = c :: fillMarks rest := by
  rw [fillMarks]
  rintro _ rfl rfl
  exact single (List.prefix_append ['?', '?'] _)

private theorem fillMarks_of_clean (clean : ¬ ['?', '?'] <:+: text) : fillMarks text = text := by
  induction text with
  | nil => rfl
  | cons c rest ih =>
    rw [List.infix_cons_iff, not_or] at clean
    rw [fillMarks_cons clean.1, ih clean.2]

private theorem fillMarks_append (clean : ¬ ['?', '?'] <:+: before ++ ['?']) :
    fillMarks (before ++ '?' :: '?' :: rest) = before ++ 's' :: fillMarks rest := by
  induction before with
  | nil => rw [List.nil_append, fillMarks, List.nil_append]
  | cons c before ih =>
    rw [List.cons_append, List.infix_cons_iff, not_or] at clean
    have single : ¬ ['?', '?'] <+: c :: (before ++ '?' :: '?' :: rest) :=
      mt mark_prefix_iff.mp clean.1
    rw [List.cons_append, fillMarks_cons single, ih clean.2, List.cons_append]

theorem Filled.cons (single : ¬ ['?', '?'] <+: c :: rest) (later : Filled rest filled) :
    Filled (c :: rest) (c :: filled) := by
  cases later with
  | plain clean => exact .plain (List.infix_cons_iff.not.mpr (not_or.mpr ⟨single, clean⟩))
  | @mark before rest filled clean later =>
    have clean' : ¬ ['?', '?'] <:+: (c :: before) ++ ['?'] := by
      rw [List.cons_append, List.infix_cons_iff, not_or]
      exact ⟨mt mark_prefix_iff.mpr single, clean⟩
    exact .mark clean' later

theorem filled_iff : Filled text filled ↔ filled = fillMarks text := by
  constructor
  · intro given
    induction given with
    | plain clean => exact (fillMarks_of_clean clean).symm
    | mark clean _ ih => rw [fillMarks_append clean, ih]
  · rintro rfl
    fun_induction fillMarks text with
    | case1 rest ih => exact @Filled.mark [] _ _ (by decide) ih
    | case2 c rest other ih =>
      refine ih.cons fun start => ?_
      obtain ⟨tail, same⟩ := start
      obtain ⟨rfl, rfl⟩ := List.cons.inj same
      exact other tail rfl rfl
    | case3 => exact .plain (by decide)

end

section
variable {m : CodeModule} {categories row : List String} {place : Position} {text : String}

/-- A row that can be taken for a constraint of a function. -/
def IsConstraint (row : List String) : Prop :=
  ∃ function text third more c, row = function :: text :: third :: more ∧
    Constraint.ofText text = .ok c

/-- A row that can be taken for a comment. The address is looked at only if it matters. -/
def IsComment (categories row : List String) : Prop :=
  ∃ address words category more, row = address :: words :: category :: more ∧
    (address = "0" ∨ category ∉ categories ∨ ∃ value, Text.word? address.toList = some value)

/-- A row that says something about a place of the module. -/
def Remarks (m : CodeModule) (categories row : List String) (place : Position) (text : String) :
    Prop :=
  ∃ address words category more value, row = address :: words :: category :: more ∧
    address ≠ "0" ∧ category ∈ categories ∧ Text.word? address.toList = some value ∧
    m.Locates value.toNat place ∧ Filled words.toList text.toList

theorem exists_constraintOf_iff : (∃ entry, constraintOf row = .ok entry) ↔ IsConstraint row := by
  unfold constraintOf
  split
  next function text third more =>
    cases parsed : Constraint.ofText text with
    | ok c => exact iff_of_true ⟨_, rfl⟩ ⟨function, text, third, more, c, rfl, parsed⟩
    | error e =>
      refine iff_of_false (by simp) fun given => ?_
      obtain ⟨_, _, _, _, c, same, parsed'⟩ := given
      obtain ⟨rfl, rfl, rfl, rfl⟩ : _ ∧ _ ∧ _ ∧ _ := by simpa using same
      rw [parsed] at parsed'
      contradiction
  next other =>
    refine iff_of_false (by simp) fun given => ?_
    obtain ⟨function, text, third, more, _, same, _⟩ := given
    exact other function text third more same

theorem exists_commentOf_iff :
    (∃ entry, commentOf categories row = .ok entry) ↔ IsComment categories row := by
  unfold commentOf
  split
  next address words category more =>
    have known : IsComment categories (address :: words :: category :: more) ↔
        (address = "0" ∨ category ∉ categories) ∨
          ∃ value, Text.word? address.toList = some value := by
      rw [or_assoc]
      constructor
      · intro given
        obtain ⟨_, _, _, _, same, good⟩ := given
        obtain ⟨rfl, rfl, rfl, rfl⟩ : _ ∧ _ ∧ _ ∧ _ := by simpa using same
        exact good
      · exact fun good => ⟨address, words, category, more, rfl, good⟩
    rw [known]
    split
    next idle => exact iff_of_true ⟨none, rfl⟩ (.inl idle)
    next counts => cases Text.word? address.toList <;> simp [counts]
  next other =>
    refine iff_of_false (by simp) fun given => ?_
    obtain ⟨address, words, category, more, same, _⟩ := given
    exact other address words category more same

theorem remarks_iff : Remarks m categories row place text ↔
    ∃ address, commentOf categories row = .ok (some (address, text)) ∧ m.locate? address = some place := by
  simp only [CodeModule.locate?_eq_some_iff]
  constructor
  · intro given
    obtain ⟨address, words, category, more, value, rfl, counts, listed, read, located, filled⟩ := given
    refine ⟨value.toNat, ?_, located⟩
    have known : ¬ (address = "0" ∨ category ∉ categories) := by simp [counts, listed]
    simp only [commentOf, if_neg known, read, ← filled_iff.mp filled, String.ofList_toList]
  · intro given
    obtain ⟨address, read, located⟩ := given
    unfold commentOf at read
    split at read
    next number words category more =>
      split at read
      next => simp at read
      next counts =>
        rw [not_or, not_not] at counts
        split at read
        next value parsed =>
          obtain ⟨rfl, rfl⟩ : _ ∧ _ := by simpa using read
          exact ⟨number, words, category, more, value, rfl, counts.1, counts.2, parsed, located,
            filled_iff.mpr String.toList_ofList⟩
        next => simp at read
    next => simp at read

end

def placed (m : CodeModule) (found : List (Option (Nat × String))) : List (Position × String) :=
  (found.filterMap id).filterMap fun entry => (m.locate? entry.1).map fun place => (place, entry.2)

private theorem commentTexts_eq (m : CodeModule) (found : List (Option (Nat × String))) :
    commentTexts m (found.filterMap id) = OrdMap.putAll ∅ (placed m found) := by
  unfold commentTexts OrdMap.putAll placed
  generalize found.filterMap id = entries
  rw [List.foldl_filterMap]
  congr 1
  funext all entry
  cases m.locate? entry.1 <;> rfl

theorem mem_placed {m : CodeModule} {found : List (Option (Nat × String))} {place : Position}
    {text : String} : (place, text) ∈ placed m found ↔
      ∃ address, some (address, text) ∈ found ∧ m.locate? address = some place := by
  simp [placed]

theorem exists_constraints_iff {rows : List (List String)} :
    (∃ found, constraints rows = .ok found) ↔ ∀ row ∈ rows, IsConstraint row := by
  have all : (∃ found, allOk (rows.map constraintOf) = .ok found) ↔ _ := exists_allOk_iff
  simp only [List.forall_mem_map, exists_constraintOf_iff] at all
  rw [← all, constraints]
  cases allOk (rows.map constraintOf) <;> simp [Except.map]

theorem exists_comments_iff {m : CodeModule}
    {outcomes : List (Except Error (Option (Nat × String)))} :
    (∃ table, comments m outcomes = .ok table) ↔ ∀ outcome ∈ outcomes, ∃ entry, outcome = .ok entry := by
  rw [← exists_allOk_iff, comments]
  cases allOk outcomes <;> simp [Except.map]

theorem constraints_congr {rows others : List (List String)}
    (same : ∀ row, row ∈ rows ↔ row ∈ others) :
    (constraints rows).toOption = (constraints others).toOption := by
  refine toOption_allOk_map (fun l l' same => OrdMap.putAll_congr same) fun outcome => ?_
  simp only [List.mem_map, same]

theorem comments_congr (m : CodeModule)
    {outcomes others : List (Except Error (Option (Nat × String)))}
    (same : ∀ outcome, outcome ∈ outcomes ↔ outcome ∈ others) :
    (comments m outcomes).toOption = (comments m others).toOption := by
  refine toOption_allOk_map (fun l l' same => ?_) same
  rw [commentTexts_eq, commentTexts_eq, OrdMap.putAll_congr]
  rintro ⟨place, text⟩
  simp only [mem_placed, same]

/-- Comments on just the places that something is said about. Each has the different texts that are
said about its place, in order, with a line for each. -/
structure Gathers (said : Position → String → Prop) (table : OrdMap Position String) : Prop where
  places : ∀ place, table.contains place ↔ ∃ text, said place text
  texts : ∀ place comment, table.get? place = some comment → ∃ texts : List String,
    texts.Pairwise (· < ·) ∧ (∀ text, text ∈ texts ↔ said place text) ∧
      comment = "\n# ".intercalate texts

private theorem gathers_commentTexts {m : CodeModule} {found : List (Option (Nat × String))}
    {said : Position → String → Prop}
    (tells : ∀ place text, (place, text) ∈ placed m found ↔ said place text) :
    Gathers said ((commentTexts m (found.filterMap id)).mapValues fun _ texts => commentText texts) := by
  rw [commentTexts_eq]
  refine ⟨fun place => ?_, fun place comment known => ?_⟩
  · rw [OrdMap.contains, OrdMap.get?_mapValues, Option.isSome_map]
    refine OrdMap.contains_putAll.trans ?_
    simp [tells, OrdMap.contains]
  · rw [OrdMap.get?_mapValues, Option.map_eq_some_iff] at known
    obtain ⟨set, filled, rfl⟩ := known
    obtain ⟨-, members⟩ := OrdMap.get?_putAll.mp filled
    refine ⟨set.toList, set.increasing.imp compareOfLessAndEq_eq_lt.mp, fun text => ?_, rfl⟩
    exact (members text).trans (tells place text)

/-- Comments are read if all rows are comments, and gather what the rows remark. -/
theorem comments_gathers {m : CodeModule} {categories : List String} {rows : List (List String)}
    {table : OrdMap Position String} (read : comments m (rows.map (commentOf categories)) = .ok table) :
    Gathers (fun place text => ∃ row ∈ rows, Remarks m categories row place text) table := by
  unfold comments at read
  cases all : allOk (rows.map (commentOf categories)) with
  | error e =>
    rw [all] at read
    contradiction
  | ok found =>
    rw [all] at read
    obtain rfl := Except.ok.inj read
    refine gathers_commentTexts fun place text => ?_
    have members (address : Nat) : some (address, text) ∈ found ↔
        ∃ row ∈ rows, commentOf categories row = .ok (some (address, text)) := by
      rw [← List.mem_map, allOk_eq_ok_iff.mp all]
      simp
    simp only [mem_placed, members, remarks_iff]
    constructor
    · intro given
      obtain ⟨address, ⟨row, listed, said⟩, located⟩ := given
      exact ⟨row, listed, address, said, located⟩
    · intro given
      obtain ⟨row, listed, address, said, located⟩ := given
      exact ⟨address, ⟨row, listed, said⟩, located⟩

end Relations
end TypeRecovery
