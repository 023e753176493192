import TypeRecovery.Constraint
import TypeRecovery.Proofs.Text

/-! Constraints and their texts. Bases stand unquoted beside the marks that separate labels and
sides, so that just those constraints can be read back from their texts whose bases are not empty
and free of such marks. Whatever can be read at all is of that kind. -/
namespace TypeRecovery

namespace Text

/-- The character stands for itself: it separates neither labels nor sides, and is no white
space. -/
def isSolid (c : Char) : Bool := c ≠ '.' && c ≠ '⊑' && !isSpace c

theorem isSolid_iff {c : Char} : isSolid c ↔ c ≠ '.' ∧ c ≠ '⊑' ∧ isSpace c = false := by
  simp [isSolid, and_assoc]

theorem isSolid_of_isDigit {c : Char} (digit : c.isDigit) : isSolid c := by
  have range : 48 ≤ c.toNat ∧ c.toNat ≤ 57 := by
    rw [Char.isDigit, Bool.and_eq_true, decide_eq_true_eq, decide_eq_true_eq] at digit
    exact digit
  apply isSolid_iff.mpr
  refine ⟨?_, ?_, not_isSpace_of_visible (by omega) (by omega)⟩
  · rintro rfl
    contradiction
  · rintro rfl
    contradiction

theorem isSolid_repr {n : Nat} {c : Char} (inside : c ∈ (Nat.repr n).toList) : isSolid c :=
  isSolid_of_isDigit (isDigit_of_mem_repr inside)

end Text

namespace Label
open Text

private theorem isSolid_text {label : Label} {c : Char} (inside : c ∈ label.text.toList) :
    isSolid c := by
  have constant (s : String) (all : s.toList.all isSolid) (inside : c ∈ s.toList) : isSolid c :=
    List.all_eq_true.mp all c inside
  cases label with
  | output => exact constant "out" (by decide) inside
  | load => exact constant "load" (by decide) inside
  | store => exact constant "store" (by decide) inside
  | input index =>
    rw [text, String.toList_append, List.mem_append] at inside
    rcases inside with start | number
    · exact constant "in_" (by decide) start
    · exact isSolid_repr number
  | deref size offset =>
    simp only [text, String.toList_append, List.mem_append] at inside
    rcases inside with ((start | number) | mark) | number
    · exact constant "σ" (by decide) start
    · exact isSolid_repr number
    · exact constant "@" (by decide) mark
    · rw [offsetText] at number
      split at number
      · rw [String.toList_append, List.mem_append] at number
        rcases number with sign | number
        · exact constant "-" (by decide) sign
        · exact isSolid_repr number
      · exact isSolid_repr number

private theorem read_input (index : UInt64) :
    read (input index).text.toList = .ok (.input index) := by
  have start : afterStart? ['i', 'n', '_'] (input index).text.toList =
      some (wordText index).toList := by
    rw [text, String.toList_append]
    exact afterStart?_append "in_".toList _
  have other (s : List Char) (apart : s.head? ≠ some 'i') : (input index).text.toList ≠ s := by
    rintro rfl
    rw [text, String.toList_append] at apart
    exact apart rfl
  rw [read, if_neg (other _ (by decide)), if_neg (other _ (by decide)),
    if_neg (other _ (by decide)), start]
  dsimp only
  rw [word?_wordText]

theorem read_sigma (numbers : List Char) :
    read ('σ' :: numbers) = readDeref ('σ' :: numbers) numbers := by
  simp [read, afterStart?]

private theorem read_deref (size : UInt64) (offset : Int64) :
    read (deref size offset).text.toList = .ok (.deref size offset) := by
  have number : '@' ∉ (wordText size).toList := by
    intro inside
    have digit := isDigit_of_mem_repr inside
    contradiction
  have sign : "σ".toList = ['σ'] := rfl
  have mark : "@".toList = ['@'] := rfl
  simp only [text, String.toList_append, sign, mark, List.append_assoc, List.cons_append,
    List.nil_append]
  rw [read_sigma, readDeref, splitFirst?_append number]
  dsimp only
  rw [word?_wordText, offset?_offsetText]

theorem read_text (label : Label) : read label.text.toList = .ok label := by
  cases label with
  | input index => exact read_input index
  | deref size offset => exact read_deref size offset
  | output | load | store => decide

end Label

namespace TypeVar
open Text

/-- The base is not empty, and all its characters stand for themselves. -/
def Plain (v : TypeVar) : Prop := v.base ≠ "" ∧ ∀ c ∈ v.base.toList, isSolid c

instance (v : TypeVar) : Decidable v.Plain :=
  decidable_of_iff (v.base ≠ "" ∧ v.base.toList.all isSolid) (by rw [List.all_eq_true]; rfl)

theorem toList_text (v : TypeVar) :
    v.text.toList = v.base.toList ++ (v.path.map fun label => label.text.toList).flatMap ('.' :: ·) := by
  obtain ⟨base, path⟩ := v
  simp only [text]
  induction path generalizing base with
  | nil => simp
  | cons label path ih =>
    rw [List.foldl_cons, ih]
    simp [String.toList_append, List.append_assoc]

private theorem readPath_text (path : List Label) :
    readPath (path.map fun label => label.text.toList) = .ok path := by
  induction path with
  | nil => rfl
  | cons label path ih =>
    rw [List.map_cons, readPath, Label.read_text, ih]
    rfl

private theorem isSolid_text {v : TypeVar} (plain : v.Plain) {c : Char} (inside : c ∈ v.text.toList)
    (within : c ≠ '.') : isSolid c := by
  rw [toList_text, List.mem_append] at inside
  rcases inside with early | late
  · exact plain.2 c early
  · obtain ⟨part, listed, inside⟩ := List.mem_flatMap.mp late
    obtain ⟨label, _, rfl⟩ := List.mem_map.mp listed
    rcases List.mem_cons.mp inside with dot | inside
    · exact absurd dot within
    · exact Label.isSolid_text inside

private theorem not_isSpace_text {v : TypeVar} (plain : v.Plain) {c : Char}
    (inside : c ∈ v.text.toList) :
    isSpace c = false := by
  by_cases dot : c = '.'
  · subst dot
    decide
  · exact (isSolid_iff.mp (isSolid_text plain inside dot)).2.2

private theorem symbol_notMem_text {v : TypeVar} (plain : v.Plain) : '⊑' ∉ v.text.toList := by
  intro inside
  have solid := isSolid_text plain inside (by decide)
  contradiction

theorem read_text {v : TypeVar} (plain : v.Plain) {before after : List Char}
    (opening : ∀ c ∈ before, isSpace c) (closing : ∀ c ∈ after, isSpace c) :
    read (before ++ v.text.toList ++ after) = .ok v := by
  have cut : split '.' v.text.toList =
      v.base.toList :: v.path.map fun label => label.text.toList := by
    rw [toList_text]
    apply split_join
    intro part listed dot
    have solid : isSolid '.' := by
      rcases List.mem_cons.mp listed with rfl | later
      · exact plain.2 '.' dot
      · obtain ⟨label, _, rfl⟩ := List.mem_map.mp later
        exact Label.isSolid_text dot
    contradiction
  have full : v.base.toList.isEmpty = false := by simpa using plain.1
  have solid : v.base.toList.any isSpace = false := by
    apply List.any_eq_false.mpr
    intro c inside
    rw [(isSolid_iff.mp (plain.2 c inside)).2.2]
    exact Bool.false_ne_true
  unfold read
  rw [trim_padded opening closing fun c inside => not_isSpace_text plain inside]
  dsimp only
  rw [cut]
  dsimp only
  rw [full, solid, readPath_text]
  simp [Except.map]

/-- What is read from a text without the subtype sign has a plain base. -/
theorem plain_of_read {s : List Char} {v : TypeVar} (found : read s = .ok v) (absent : '⊑' ∉ s) :
    v.Plain := by
  unfold read at found
  dsimp only at found
  split at found
  next => contradiction
  next base parts cut =>
    split at found
    next => contradiction
    next proper =>
      rw [Bool.not_eq_true, Bool.or_eq_false_iff] at proper
      obtain ⟨undotted, inside⟩ := of_mem_split (cut ▸ List.mem_cons_self : base ∈ split '.' (trim s))
      cases labels : readPath parts with
      | error e =>
        rw [labels] at found
        contradiction
      | ok path =>
        rw [labels] at found
        obtain rfl := Except.ok.inj found
        refine ⟨?_, ?_⟩
        · intro empty
          have nil : base = [] := by simpa using congrArg String.toList empty
          rw [nil] at proper
          exact absurd proper.1 (by decide)
        · intro c member
          rw [String.toList_ofList] at member
          apply isSolid_iff.mpr
          refine ⟨?_, ?_, ?_⟩
          · rintro rfl
            exact undotted member
          · rintro rfl
            exact absent (trim_subset s (inside member))
          · exact Bool.not_eq_true _ ▸ List.any_eq_false.mp proper.2 c member

end TypeVar

namespace Constraint
open Text

def Plain (c : Constraint) : Prop := c.lower.Plain ∧ c.upper.Plain

instance (c : Constraint) : Decidable c.Plain := inferInstanceAs (Decidable (_ ∧ _))

theorem ofText_text {c : Constraint} (plain : c.Plain) : ofText c.text = .ok c := by
  obtain ⟨lower, upper⟩ := plain
  have blank : ∀ x ∈ [' '], isSpace x := List.forall_mem_singleton.mpr rfl
  have none : ∀ x ∈ ([] : List Char), isSpace x := by simp
  have text : c.text.toList =
      (c.lower.text.toList ++ [' ']) ++ '⊑' :: ([' '] ++ c.upper.text.toList) := by
    simp [Constraint.text, String.toList_append]
  have first : '⊑' ∉ c.lower.text.toList ++ [' '] := by
    simpa using TypeVar.symbol_notMem_text lower
  have second : '⊑' ∉ [' '] ++ c.upper.text.toList := by
    simpa using TypeVar.symbol_notMem_text upper
  have left := TypeVar.read_text lower none blank
  have right := TypeVar.read_text upper blank none
  rw [List.nil_append] at left
  rw [List.append_nil] at right
  rw [ofText, text, read, splitFirst?_append first]
  dsimp only
  rw [if_neg second, readSides, left, right]
  rfl

theorem plain_of_ofText {s : String} {c : Constraint} (found : ofText s = .ok c) : c.Plain := by
  unfold ofText read at found
  split at found
  next => contradiction
  next lower upper cut =>
    obtain ⟨-, before⟩ := of_splitFirst?_eq_some cut
    split at found
    next => contradiction
    next after =>
      unfold readSides at found
      split at found
      next => contradiction
      next v left =>
        split at found
        next => contradiction
        next w right =>
          obtain rfl := Except.ok.inj found
          exact ⟨TypeVar.plain_of_read left before, TypeVar.plain_of_read right after⟩

/-- Just the constraints with plain bases are read back from their texts, and whatever is read from
a text is such a constraint, and so is read back once more. -/
theorem ofText_text_iff_plain :
    (∀ c : Constraint, ofText c.text = .ok c ↔ c.Plain) ∧
    ∀ (s : String) (c : Constraint), ofText s = .ok c → c.Plain ∧ ofText c.text = .ok c := by
  refine ⟨fun c => ⟨plain_of_ofText, ofText_text⟩, ?_⟩
  intro s c found
  have plain := plain_of_ofText found
  exact ⟨plain, ofText_text plain⟩

/-- A text with signs, zeros and blanks that printing does not give back. -/
theorem ofText_text_iff_plain_loose :
    ∃ c, ofText " f.in_+0.load.σ04@-8⊑int32\t" = .ok c ∧ c.Plain ∧ ofText c.text = .ok c ∧
      c.text = "f.in_0.load.σ4@-8 ⊑ int32" := by
  have found : ofText " f.in_+0.load.σ04@-8⊑int32\t" =
      .ok ⟨⟨"f", [.input 0, .load, .deref 4 (-8)]⟩, ⟨"int32", []⟩⟩ := by decide +kernel
  obtain ⟨plain, again⟩ := ofText_text_iff_plain.2 _ _ found
  exact ⟨_, found, plain, again, by decide +kernel⟩

end Constraint
end TypeRecovery
