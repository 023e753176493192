import TypeRecovery.Proofs.Text
import TypeRecovery.Rules.Relations

/-! Relations that are written as text and read back. Tabs and line feeds are not quoted and a
carriage return at the end of a line is dropped, so that just those rows come back as they were that
have a column, hold neither mark, and do not end in a return. -/
namespace TypeRecovery

namespace Text
variable {sep : Char} {s : List Char} {parts : List (List Char)} {row : List String}
variable {rows : List (List String)}

/-- The row has a column, and nothing in it can be taken for an end of a column or a line. -/
structure CleanRow (row : List String) : Prop where
  full : row ≠ []
  untabbed : ∀ column ∈ row, '\t' ∉ column.toList
  unbroken : ∀ column ∈ row, '\n' ∉ column.toList
  ending : ∀ column, row.getLast? = some column → column.toList.getLast? ≠ some '\r'

private theorem join_cons (sep : Char) (first : List Char) (rest : List (List Char)) :
    join [sep] (first :: rest) = first ++ rest.flatMap (sep :: ·) := by
  induction rest generalizing first with
  | nil => rw [join, List.flatMap_nil, List.append_nil]
  | cons second rest ih =>
    rw [join, ih, List.flatMap_cons, List.append_assoc, List.singleton_append, List.cons_append]
    simp

private theorem join_split (sep : Char) (s : List Char) : join [sep] (split sep s) = s := by
  obtain ⟨first, rest, cut⟩ := List.exists_cons_of_ne_nil (split_ne_nil sep s)
  rw [cut, join_cons]
  exact (split_eq_cons_iff.mp cut).1.symm

theorem split_join_eq_self (full : parts ≠ []) (absent : ∀ part ∈ parts, sep ∉ part) :
    split sep (join [sep] parts) = parts := by
  obtain ⟨first, rest, rfl⟩ := List.exists_cons_of_ne_nil full
  rw [join_cons]
  exact split_join absent

theorem mem_join_elim {c : Char} (inside : c ∈ join [sep] parts) :
    c = sep ∨ ∃ part ∈ parts, c ∈ part := by
  cases parts with
  | nil => contradiction
  | cons first rest =>
    rw [join_cons, List.mem_append, List.mem_flatMap] at inside
    rcases inside with early | ⟨part, listed, inside⟩
    · exact .inr ⟨first, List.mem_cons_self, early⟩
    · exact (List.mem_cons.mp inside).imp_right fun inside =>
        ⟨part, List.mem_cons_of_mem first listed, inside⟩

/-- What a joined text ends in is the end of its last part, or the separator. -/
theorem getLast?_join {c : Char} (other : c ≠ sep) : (join [sep] parts).getLast? = some c ↔
    ∃ part, parts.getLast? = some part ∧ part.getLast? = some c := by
  induction parts with
  | nil => simp [join]
  | cons first rest ih =>
    cases rest with
    | nil => simp [join]
    | cons second rest =>
      rw [join, List.getLast?_append, List.getLast?_cons_cons, ← ih]
      · cases (join [sep] (second :: rest)).getLast? with
        | none => simp [Ne.symm other]
        | some d => simp
      · simp

private theorem dropReturn_subset (line : List Char) : dropReturn line ⊆ line := by
  unfold dropReturn
  split
  · exact List.dropLast_subset line
  · exact List.Subset.refl line

theorem dropReturn_eq_self_iff {line : List Char} :
    dropReturn line = line ↔ line.getLast? ≠ some '\r' := by
  unfold dropReturn
  split
  next ends =>
    refine iff_of_false (fun same => ?_) (by simp [ends])
    have shorter := congrArg List.length same
    cases line with
    | nil => contradiction
    | cons c line => simp at shorter
  next apart => exact iff_of_true rfl apart

private theorem lines_line {line rest : List Char} (unbroken : '\n' ∉ line) :
    lines (line ++ '\n' :: rest) = dropReturn line :: lines rest := by
  obtain ⟨second, others, cut⟩ := List.exists_cons_of_ne_nil (split_ne_nil '\n' rest)
  rw [lines, lines, split_append unbroken, cut, linesOf]
  simp

private theorem newline_notMem_of_mem_lines {line : List Char} (listed : line ∈ lines s) :
    '\n' ∉ line := by
  have each (parts : List (List Char)) (clean : ∀ part ∈ parts, '\n' ∉ part)
      (listed : line ∈ linesOf parts) : '\n' ∉ line := by
    fun_induction linesOf parts with
    | case1 => contradiction
    | case2 => contradiction
    | case3 last =>
      obtain rfl := List.mem_singleton.mp listed
      exact clean line List.mem_cons_self
    | case4 first rest _ ih =>
      rcases List.mem_cons.mp listed with rfl | later
      · exact fun inside => clean first List.mem_cons_self (dropReturn_subset first inside)
      · exact ih (fun part inside => clean part (List.mem_cons_of_mem first inside)) later
  exact each _ (fun part inside => (of_mem_split inside).1) listed

def rowText (row : List String) : List Char := join ['\t'] (row.map String.toList)

private theorem newline_notMem_rowText (unbroken : ∀ column ∈ row, '\n' ∉ column.toList) :
    '\n' ∉ rowText row := by
  intro inside
  rcases mem_join_elim inside with mark | ⟨part, listed, inside⟩
  · contradiction
  · obtain ⟨column, member, rfl⟩ := List.mem_map.mp listed
    exact unbroken column member inside

theorem dropReturn_rowText_iff : dropReturn (rowText row) = rowText row ↔
    ∀ column, row.getLast? = some column → column.toList.getLast? ≠ some '\r' := by
  rw [dropReturn_eq_self_iff, rowText, ne_eq, getLast?_join (by decide), List.getLast?_map]
  simp

theorem decodeRows_encodeRows (unbroken : ∀ row ∈ rows, ∀ column ∈ row, '\n' ∉ column.toList) :
    decodeRows (encodeRows rows) =
      rows.map fun row => (split '\t' (dropReturn (rowText row))).map String.ofList := by
  rw [decodeRows, encodeRows, String.toList_ofList]
  induction rows with
  | nil => rfl
  | cons row rows ih =>
    obtain ⟨first, later⟩ := List.forall_mem_cons.mp unbroken
    have line : (row :: rows).flatMap encodeRow = rowText row ++ '\n' :: rows.flatMap encodeRow := by
      simp [encodeRow, rowText]
    rw [line, lines_line (newline_notMem_rowText first), List.map_cons, List.map_cons, ih later]

private theorem of_mem_decodeRows {text : String} (listed : row ∈ decodeRows text) :
    row ≠ [] ∧ ∀ column ∈ row, '\t' ∉ column.toList ∧ '\n' ∉ column.toList := by
  obtain ⟨line, inside, rfl⟩ := List.mem_map.mp listed
  refine ⟨by simpa using split_ne_nil '\t' line, List.forall_mem_map.mpr fun part cut => ?_⟩
  obtain ⟨untabbed, subset⟩ := of_mem_split cut
  rw [String.toList_ofList]
  exact ⟨untabbed, fun mark => newline_notMem_of_mem_lines inside (subset mark)⟩

theorem split_rowText_eq_iff (full : row ≠ []) (untabbed : ∀ column ∈ row, '\t' ∉ column.toList) :
    (split '\t' (dropReturn (rowText row))).map String.ofList = row ↔
      dropReturn (rowText row) = rowText row := by
  have whole : (row.map String.toList).map String.ofList = row := by simp
  constructor
  · intro same
    have columns : row.map String.toList = split '\t' (dropReturn (rowText row)) := calc
      row.map String.toList
          = ((split '\t' (dropReturn (rowText row))).map String.ofList).map String.toList := by
        rw [same]
      _ = split '\t' (dropReturn (rowText row)) := by simp
    calc dropReturn (rowText row)
        = join ['\t'] (split '\t' (dropReturn (rowText row))) := (join_split _ _).symm
      _ = rowText row := by rw [← columns, rowText]
  · intro same
    rw [same, rowText, split_join_eq_self _ _, whole]
    · simpa using full
    · simpa using untabbed

end Text

namespace Relations
open Text

private theorem readFile_toUTF8 (text : String) :
    readFile (some text.toUTF8) = .ok (decodeRows text) := by
  have valid : String.fromUTF8? text.toUTF8 = some text := dif_pos text.isValidUTF8
  rw [readFile, valid]

/-- A relation that is written and read comes back as it was just if all its rows are clean. -/
theorem readFile_encodeRows_iff (rows : List (List String)) :
    readFile (some (encodeRows rows).toUTF8) = .ok rows ↔ ∀ row ∈ rows, CleanRow row := by
  have each (f : List String → List String) : rows.map f = rows ↔ ∀ row ∈ rows, f row = row := by
    have pointwise := List.map_inj_left (l := rows) (f := f) (g := id)
    rwa [List.map_id] at pointwise
  rw [readFile_toUTF8, Except.ok.injEq]
  constructor
  · intro same
    -- Every row that is read has a column and no marks, and here all rows are read.
    have read (row : List String) (listed : row ∈ rows) : row ∈ decodeRows (encodeRows rows) :=
      same.symm ▸ listed
    have marks (row : List String) (listed : row ∈ rows) := of_mem_decodeRows (read row listed)
    rw [decodeRows_encodeRows fun row listed column inside => ((marks row listed).2 column inside).2,
      each] at same
    intro row listed
    obtain ⟨full, columns⟩ := marks row listed
    have untabbed (column : String) (inside : column ∈ row) := (columns column inside).1
    refine ⟨full, untabbed, fun column inside => (columns column inside).2, ?_⟩
    exact dropReturn_rowText_iff.mp ((split_rowText_eq_iff full untabbed).mp (same row listed))
  · intro clean
    rw [decodeRows_encodeRows fun row listed => (clean row listed).unbroken, each]
    intro row listed
    obtain ⟨full, untabbed, _, ending⟩ := clean row listed
    exact (split_rowText_eq_iff full untabbed).mpr (dropReturn_rowText_iff.mpr ending)

end Relations
end TypeRecovery
