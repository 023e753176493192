import Mathlib.Data.List.Forall2
import Mathlib.Data.Nat.Digits.Defs
import TypeRecovery.Proofs.Constraint

/-! The grammar of constraint texts, apart from how they are read: signed and unsigned numerals,
labels, variables with white space around them, and two of these at the sides of the symbol. Just
the texts of the grammar are read, each as what it spells. -/
namespace TypeRecovery

namespace Text
variable {s : List Char} {c : Char} {n : Nat}

/-- One or more ASCII digits that stand for a number in base ten. -/
structure Numeral (s : List Char) (n : Nat) : Prop where
  full : s ≠ []
  digits : ∀ c ∈ s, c.isDigit
  value : Nat.ofDigits 10 (s.map fun c => c.toNat - '0'.toNat).reverse = n

/-- A numeral, perhaps behind a plus sign. -/
inductive Unsigned : List Char → Nat → Prop where
  | bare {s : List Char} {n : Nat} (numeral : Numeral s n) : Unsigned s n
  | plus {s : List Char} {n : Nat} (numeral : Numeral s n) : Unsigned ('+' :: s) n

/-- A numeral, perhaps behind a sign. -/
inductive Signed : List Char → Int → Prop where
  | bare {s : List Char} {n : Nat} (numeral : Numeral s n) : Signed s n
  | plus {s : List Char} {n : Nat} (numeral : Numeral s n) : Signed ('+' :: s) n
  | minus {s : List Char} {n : Nat} (numeral : Numeral s n) : Signed ('-' :: s) (-n)

theorem digit?_eq_some_iff {d : Nat} :
    digit? c = some d ↔ c.isDigit ∧ c.toNat - '0'.toNat = d := by
  have range : ('0' ≤ c ∧ c ≤ '9') ↔ c.isDigit := by
    rw [Char.isDigit, Bool.and_eq_true, decide_eq_true_eq, decide_eq_true_eq]
    exact Iff.rfl
  rw [digit?]
  simp only [range]
  split
  next digit => simp [digit]
  next other => simp [other]

theorem digitsFrom?_eq_some_iff {value : Nat} : digitsFrom? value s = some n ↔
    (∀ c ∈ s, c.isDigit) ∧ value * 10 ^ s.length +
      Nat.ofDigits 10 (s.map fun c => c.toNat - '0'.toNat).reverse = n := by
  induction s generalizing value with
  | nil => simp [digitsFrom?]
  | cons c rest ih =>
    have shift (d : Nat) : (10 * value + d) * 10 ^ rest.length +
        Nat.ofDigits 10 (rest.map fun c => c.toNat - '0'.toNat).reverse =
        value * 10 ^ (rest.length + 1) + (Nat.ofDigits 10
          (rest.map fun c => c.toNat - '0'.toNat).reverse + 10 ^ rest.length * d) := by
      ring
    rw [digitsFrom?, Option.bind_eq_some_iff]
    simp only [digit?_eq_some_iff, ih, List.forall_mem_cons, List.map_cons, List.reverse_cons,
      Nat.ofDigits_append, Nat.ofDigits_singleton, List.length_reverse, List.length_map,
      List.length_cons]
    constructor
    · intro given
      obtain ⟨d, ⟨digit, rfl⟩, digits, value⟩ := given
      exact ⟨⟨digit, digits⟩, by rw [← value, shift]⟩
    · intro given
      obtain ⟨⟨digit, digits⟩, value⟩ := given
      exact ⟨_, ⟨digit, rfl⟩, digits, by rw [← value, shift]⟩

theorem digits?_eq_some_iff : digits? s = some n ↔ Numeral s n := by
  cases s with
  | nil => exact iff_of_false (by simp [digits?]) fun numeral => numeral.full rfl
  | cons c rest =>
    rw [digits?, digitsFrom?_eq_some_iff, Nat.zero_mul, Nat.zero_add]
    · exact ⟨fun given => ⟨by simp, given.1, given.2⟩, fun numeral => ⟨numeral.digits, numeral.value⟩⟩
    · simp

private theorem Numeral.not_sign (numeral : Numeral (c :: s) n) : c ≠ '+' ∧ c ≠ '-' := by
  have digit := numeral.digits c List.mem_cons_self
  refine ⟨?_, ?_⟩
  · rintro rfl
    contradiction
  · rintro rfl
    contradiction

theorem bind_digits?_eq_some_iff {α : Type} {fits : Nat → Prop} [DecidablePred fits]
    {make : Nat → α}
    {a : α} : ((digits? s).bind fun n => if fits n then some (make n) else none) = some a ↔
      ∃ n, Numeral s n ∧ fits n ∧ a = make n := by
  simp only [Option.bind_eq_some_iff, digits?_eq_some_iff, Option.ite_none_right_eq_some,
    Option.some.injEq, @eq_comm _ a]

theorem word?_eq_some_iff {w : UInt64} :
    word? s = some w ↔ ∃ n, Unsigned s n ∧ n < 2 ^ 64 ∧ w = UInt64.ofNat n := by
  unfold word?
  dsimp only
  rw [bind_digits?_eq_some_iff]
  split
  next rest =>
    constructor
    · intro given
      obtain ⟨n, numeral, fits⟩ := given
      exact ⟨n, .plus numeral, fits⟩
    · intro given
      obtain ⟨n, spelled, fits⟩ := given
      cases spelled with
      | bare numeral => exact absurd rfl numeral.not_sign.1
      | plus numeral => exact ⟨n, numeral, fits⟩
  next other =>
    constructor
    · intro given
      obtain ⟨n, numeral, fits⟩ := given
      exact ⟨n, .bare numeral, fits⟩
    · intro given
      obtain ⟨n, spelled, fits⟩ := given
      cases spelled with
      | bare numeral => exact ⟨n, numeral, fits⟩
      | plus numeral => exact absurd rfl (other _)

theorem offset?_eq_some_iff {o : Int64} : offset? s = some o ↔
    ∃ i, Signed s i ∧ -2 ^ 63 ≤ i ∧ i < 2 ^ 63 ∧ o = Int64.ofInt i := by
  have half : UInt64.size / 2 = 2 ^ 63 := rfl
  unfold offset?
  rw [half]
  split
  next rest =>
    rw [bind_digits?_eq_some_iff]
    constructor
    · intro given
      obtain ⟨n, numeral, low, rfl⟩ := given
      exact ⟨-n, .minus numeral, by omega, by omega, rfl⟩
    · intro given
      obtain ⟨i, spelled, low, _, rfl⟩ := given
      cases spelled with
      | bare numeral => exact absurd rfl numeral.not_sign.2
      | minus numeral => exact ⟨_, numeral, by omega, rfl⟩
  next rest =>
    rw [bind_digits?_eq_some_iff]
    constructor
    · intro given
      obtain ⟨n, numeral, high, rfl⟩ := given
      exact ⟨n, .plus numeral, by omega, by omega, rfl⟩
    · intro given
      obtain ⟨i, spelled, _, high, rfl⟩ := given
      cases spelled with
      | bare numeral => exact absurd rfl numeral.not_sign.1
      | plus numeral => exact ⟨_, numeral, by omega, rfl⟩
  next minus plus =>
    rw [bind_digits?_eq_some_iff]
    constructor
    · intro given
      obtain ⟨n, numeral, high, rfl⟩ := given
      exact ⟨n, .bare numeral, by omega, by omega, rfl⟩
    · intro given
      obtain ⟨i, spelled, _, high, rfl⟩ := given
      cases spelled with
      | bare numeral => exact ⟨_, numeral, by omega, rfl⟩
      | plus numeral => exact absurd rfl (plus _)
      | minus numeral => exact absurd rfl (minus _)

private theorem Unsigned.digit_or_sign (spelled : Unsigned s n) (inside : c ∈ s) :
    c.isDigit ∨ c = '+' := by
  cases spelled with
  | bare numeral => exact .inl (numeral.digits c inside)
  | plus numeral => exact (List.mem_cons.mp inside).symm.imp_left (numeral.digits c)

theorem Unsigned.isSolid (spelled : Unsigned s n) (inside : c ∈ s) : isSolid c := by
  rcases spelled.digit_or_sign inside with digit | rfl
  · exact isSolid_of_isDigit digit
  · decide

private theorem Signed.digit_or_sign {i : Int} (spelled : Signed s i) (inside : c ∈ s) :
    c.isDigit ∨ c = '+' ∨ c = '-' := by
  cases spelled with
  | bare numeral => exact .inl (numeral.digits c inside)
  | plus numeral =>
    rcases List.mem_cons.mp inside with sign | digit
    · exact .inr (.inl sign)
    · exact .inl (numeral.digits c digit)
  | minus numeral =>
    rcases List.mem_cons.mp inside with sign | digit
    · exact .inr (.inr sign)
    · exact .inl (numeral.digits c digit)

theorem Signed.isSolid {i : Int} (spelled : Signed s i) (inside : c ∈ s) : isSolid c := by
  rcases spelled.digit_or_sign inside with digit | rfl | rfl
  · exact isSolid_of_isDigit digit
  · decide
  · decide

end Text

namespace Label
open Text
variable {s : List Char} {label : Label}

inductive Spelled : List Char → Label → Prop where
  | output : Spelled ['o', 'u', 't'] .output
  | load : Spelled ['l', 'o', 'a', 'd'] .load
  | store : Spelled ['s', 't', 'o', 'r', 'e'] .store
  | input {index : List Char} {n : Nat} (spelled : Unsigned index n) (fits : n < 2 ^ 64) :
    Spelled (['i', 'n', '_'] ++ index) (.input (UInt64.ofNat n))
  | deref {size offset : List Char} {n : Nat} {i : Int} (bytes : Unsigned size n)
    (fits : n < 2 ^ 64) (place : Signed offset i) (low : -2 ^ 63 ≤ i) (high : i < 2 ^ 63) :
    Spelled ('σ' :: (size ++ '@' :: offset)) (.deref (UInt64.ofNat n) (Int64.ofInt i))

private theorem read_of_in {index : List Char} {w : UInt64} (number : word? index = some w) :
    read (['i', 'n', '_'] ++ index) = .ok (.input w) := by
  simp [read, afterStart?, number]

private theorem spelled_of_readDeref {whole : List Char} (found : readDeref whole s = .ok label) :
    Spelled ('σ' :: s) label := by
  unfold readDeref at found
  split at found
  next => contradiction
  next size offset cut =>
    obtain ⟨rfl, _⟩ := of_splitFirst?_eq_some cut
    split at found
    next => contradiction
    next word bytes =>
      split at found
      next => contradiction
      next place there =>
        obtain ⟨n, spelled, fits, rfl⟩ := word?_eq_some_iff.mp bytes
        obtain ⟨i, signed, low, high, rfl⟩ := offset?_eq_some_iff.mp there
        obtain rfl := Except.ok.inj found
        exact .deref spelled fits signed low high

private theorem spelled_of_read (found : read s = .ok label) : Spelled s label := by
  unfold read at found
  split at found
  next whole =>
    obtain rfl := Except.ok.inj found
    exact whole ▸ .output
  next =>
    split at found
    next whole =>
      obtain rfl := Except.ok.inj found
      exact whole ▸ .load
    next =>
      split at found
      next whole =>
        obtain rfl := Except.ok.inj found
        exact whole ▸ .store
      next =>
        split at found
        next index start =>
          obtain rfl := eq_append_of_afterStart? start
          split at found
          next word number =>
            obtain ⟨n, spelled, fits, rfl⟩ := word?_eq_some_iff.mp number
            obtain rfl := Except.ok.inj found
            exact .input spelled fits
          next => contradiction
        next =>
          split at found
          next numbers start =>
            obtain rfl := eq_append_of_afterStart? start
            exact spelled_of_readDeref found
          next => contradiction

private theorem read_of_spelled (spelled : Spelled s label) : read s = .ok label := by
  cases spelled with
  | output | load | store => decide
  | input spelled fits => exact read_of_in (word?_eq_some_iff.mpr ⟨_, spelled, fits, rfl⟩)
  | @deref size _ _ _ bytes fits place low high =>
    -- The reader cuts at the first sign, and there is none in the size.
    have absent : '@' ∉ size := by
      intro inside
      rcases bytes.digit_or_sign inside with digit | sign
      · contradiction
      · contradiction
    rw [read_sigma, readDeref, splitFirst?_append absent]
    dsimp only
    rw [word?_eq_some_iff.mpr ⟨_, bytes, fits, rfl⟩]
    dsimp only
    rw [offset?_eq_some_iff.mpr ⟨_, place, low, high, rfl⟩]

theorem Spelled.isSolid (spelled : Spelled s label) {c : Char} (inside : c ∈ s) : isSolid c := by
  have constant (word : List Char) (all : word.all Text.isSolid) (inside : c ∈ word) :
      Text.isSolid c := List.all_eq_true.mp all c inside
  cases spelled with
  | output | load | store => exact constant _ (by decide) inside
  | input spelled =>
    rcases List.mem_append.mp inside with start | number
    · exact constant _ (by decide) start
    · exact spelled.isSolid number
  | deref bytes _ place =>
    rcases List.mem_cons.mp inside with rfl | inside
    · decide
    · rcases List.mem_append.mp inside with number | inside
      · exact bytes.isSolid number
      · rcases List.mem_cons.mp inside with rfl | number
        · decide
        · exact place.isSolid number

end Label

namespace TypeVar
open Text
variable {s : List Char} {v : TypeVar}

/-- Between white space, a base without dots and white space, and labels behind dots. -/
structure Spelled (s : List Char) (v : TypeVar) : Prop where
  written : ∃ before labels after, s = before ++ (v.base.toList ++ labels.flatMap ('.' :: ·)) ++ after ∧
    (∀ c ∈ before, isSpace c) ∧ (∀ c ∈ after, isSpace c) ∧ List.Forall₂ Label.Spelled labels v.path
  named : v.base ≠ ""
  undotted : '.' ∉ v.base.toList
  unspaced : ∀ c ∈ v.base.toList, isSpace c = false

theorem readPath_eq_ok_iff {parts : List (List Char)} {path : List Label} :
    readPath parts = .ok path ↔ List.Forall₂ Label.Spelled parts path := by
  induction parts generalizing path with
  | nil =>
    rw [readPath, List.forall₂_nil_left_iff, Except.ok.injEq]
    exact eq_comm
  | cons part parts ih =>
    rw [List.forall₂_cons_left_iff]
    constructor
    · intro found
      rw [readPath] at found
      split at found
      next => contradiction
      next label first =>
        cases later : readPath parts with
        | error e =>
          rw [later] at found
          contradiction
        | ok rest =>
          rw [later] at found
          obtain rfl := Except.ok.inj found
          exact ⟨label, rest, Label.spelled_of_read first, ih.mp later, rfl⟩
    · rintro ⟨label, rest, first, later, rfl⟩
      rw [readPath, Label.read_of_spelled first, ih.mpr later]
      rfl

private theorem spelled_of_read (found : read s = .ok v) : v.Spelled s := by
  obtain ⟨before, after, padded, opening, closing⟩ := exists_trimmed s
  unfold read at found
  dsimp only at found
  split at found
  next => contradiction
  next base parts cut =>
    obtain ⟨body, undotted⟩ := split_eq_cons_iff.mp cut
    split at found
    next => contradiction
    next proper =>
      rw [Bool.not_eq_true, Bool.or_eq_false_iff, List.isEmpty_eq_false_iff] at proper
      cases labels : readPath parts with
      | error e =>
        rw [labels] at found
        contradiction
      | ok path =>
        rw [labels] at found
        obtain rfl := Except.ok.inj found
        refine ⟨⟨before, parts, after, ?_, opening, closing, readPath_eq_ok_iff.mp labels⟩, ?_, ?_, ?_⟩
        · rw [String.toList_ofList, ← body]
          exact padded
        · exact fun empty => proper.1 (by simpa using empty)
        · rw [String.toList_ofList]
          exact undotted base List.mem_cons_self
        · rw [String.toList_ofList]
          simpa using proper.2

private theorem isSolid_of_labels {labels : List (List Char)} {path : List Label}
    (spelled : List.Forall₂ Label.Spelled labels path) :
    ∀ part ∈ labels, ∀ c ∈ part, isSolid c := by
  induction spelled with
  | nil => simp
  | cons first _ ih => exact List.forall_mem_cons.mpr ⟨fun c inside => first.isSolid inside, ih⟩

private theorem read_of_spelled (spelled : v.Spelled s) : read s = .ok v := by
  obtain ⟨⟨before, labels, after, rfl, opening, closing, path⟩, named, undotted, unspaced⟩ := spelled
  have solid := isSolid_of_labels path
  -- Trimming stops at the body, since nothing in it is white space.
  have visible : ∀ c ∈ v.base.toList ++ labels.flatMap ('.' :: ·), isSpace c = false := by
    intro c inside
    rcases List.mem_append.mp inside with early | late
    · exact unspaced c early
    · obtain ⟨part, listed, inside⟩ := List.mem_flatMap.mp late
      rcases List.mem_cons.mp inside with rfl | inside
      · decide
      · exact (isSolid_iff.mp (solid part listed c inside)).2.2
  have cut : split '.' (v.base.toList ++ labels.flatMap ('.' :: ·)) = v.base.toList :: labels := by
    refine split_eq_cons_iff.mpr ⟨rfl, List.forall_mem_cons.mpr ⟨undotted, ?_⟩⟩
    exact fun part listed inside => (isSolid_iff.mp (solid part listed '.' inside)).1 rfl
  have proper : (v.base.toList.isEmpty || v.base.toList.any isSpace) = false := by
    rw [Bool.or_eq_false_iff, List.isEmpty_eq_false_iff, List.any_eq_false]
    refine ⟨by simpa using named, ?_⟩
    simpa using unspaced
  rw [read, trim_padded opening closing visible, cut]
  dsimp only
  rw [proper, if_neg Bool.false_ne_true, readPath_eq_ok_iff.mpr path, String.ofList_toList]
  rfl

end TypeVar

namespace Constraint
open Text
variable {s : List Char} {c : Constraint}

/-- Two variables at the sides of the only symbol. -/
structure Spelled (s : List Char) (c : Constraint) : Prop where
  once : s.count '⊑' = 1
  sides : ∃ lower upper, s = lower ++ '⊑' :: upper ∧ c.lower.Spelled lower ∧ c.upper.Spelled upper

private theorem spelled_of_read (found : read s = .ok c) : c.Spelled s := by
  unfold read at found
  split at found
  next => contradiction
  next lower upper cut =>
    obtain ⟨rfl, before⟩ := of_splitFirst?_eq_some cut
    split at found
    next => contradiction
    next after =>
      unfold readSides at found
      split at found
      next => contradiction
      next v left =>
        split at found
        next => contradiction
        next w right =>
          obtain rfl := Except.ok.inj found
          refine ⟨?_, lower, upper, rfl, TypeVar.spelled_of_read left, TypeVar.spelled_of_read right⟩
          rw [List.count_append, List.count_cons_self, List.count_eq_zero.mpr before,
            List.count_eq_zero.mpr after]

private theorem read_of_spelled (spelled : c.Spelled s) : read s = .ok c := by
  obtain ⟨once, lower, upper, rfl, left, right⟩ := spelled
  rw [List.count_append, List.count_cons_self] at once
  have before : '⊑' ∉ lower := List.count_eq_zero.mp (by omega)
  have after : '⊑' ∉ upper := List.count_eq_zero.mp (by omega)
  rw [read, splitFirst?_append before]
  dsimp only
  rw [if_neg after, readSides, TypeVar.read_of_spelled left]
  dsimp only
  rw [TypeVar.read_of_spelled right]

/-- A text is read as a constraint just if it spells that constraint, and a text that spells none is
refused by an error that carries it. -/
theorem ofText_iff_spelled (s : String) :
    (∀ c, ofText s = .ok c ↔ c.Spelled s.toList) ∧
      ((∃ fault, ofText s = .error ⟨s, fault⟩) ↔ ¬ ∃ c, Spelled s.toList c) := by
  have reads (c : Constraint) : read s.toList = .ok c ↔ c.Spelled s.toList :=
    ⟨spelled_of_read, read_of_spelled⟩
  simp only [← reads, ofText]
  cases read s.toList with
  | ok c => simp [Except.mapError]
  | error fault => simp [Except.mapError]

end Constraint
end TypeRecovery
