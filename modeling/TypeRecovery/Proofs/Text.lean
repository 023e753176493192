import Mathlib.Data.List.TakeWhile
import TypeRecovery.Text.Decimal
import TypeRecovery.Text.Space
import TypeRecovery.Text.Split

/-! Texts that are cut into parts and put together again, and numbers that are read back from the
digits they are written with. -/
namespace TypeRecovery.Text
variable {sep c : Char} {s : List Char}

private theorem split_of_notMem (absent : sep ∉ s) : split sep s = [s] := by
  induction s with
  | nil => rfl
  | cons c rest ih =>
    rw [List.mem_cons, not_or] at absent
    obtain ⟨apart, later⟩ := absent
    rw [split, if_neg (Ne.symm apart), ih later]

theorem split_append {part rest : List Char} (absent : sep ∉ part) :
    split sep (part ++ sep :: rest) = part :: split sep rest := by
  induction part with
  | nil => rw [List.nil_append, split, if_pos rfl]
  | cons c part ih =>
    rw [List.mem_cons, not_or] at absent
    obtain ⟨apart, later⟩ := absent
    rw [List.cons_append, split, if_neg (Ne.symm apart), ih later]

theorem split_join {first : List Char} {rest : List (List Char)}
    (absent : ∀ part ∈ first :: rest, sep ∉ part) :
    split sep (first ++ rest.flatMap (sep :: ·)) = first :: rest := by
  induction rest generalizing first with
  | nil =>
    rw [List.flatMap_nil, List.append_nil]
    exact split_of_notMem (absent first List.mem_cons_self)
  | cons second rest ih =>
    rw [List.flatMap_cons, List.cons_append, split_append (absent first List.mem_cons_self), ih]
    intro part listed
    exact absent part (List.mem_cons_of_mem first listed)

theorem of_mem_split {part : List Char} (listed : part ∈ split sep s) :
    sep ∉ part ∧ part ⊆ s := by
  induction s generalizing part with
  | nil =>
    obtain rfl := List.mem_singleton.mp listed
    exact ⟨List.not_mem_nil, List.nil_subset _⟩
  | cons c rest ih =>
    rw [split] at listed
    split at listed
    next =>
      rcases List.mem_cons.mp listed with rfl | later
      · exact ⟨List.not_mem_nil, List.nil_subset _⟩
      · obtain ⟨absent, inside⟩ := ih later
        exact ⟨absent, List.Subset.trans inside (List.subset_cons_self c rest)⟩
    next apart =>
      split at listed
      next =>
        obtain rfl := List.mem_singleton.mp listed
        exact ⟨by simpa using Ne.symm apart, by simp⟩
      next head tail cut =>
        rcases List.mem_cons.mp listed with rfl | later
        · obtain ⟨absent, inside⟩ := ih (cut ▸ List.mem_cons_self)
          exact ⟨List.not_mem_cons_of_ne_of_not_mem (Ne.symm apart) absent, List.cons_subset_cons c inside⟩
        · obtain ⟨absent, inside⟩ := ih (cut ▸ List.mem_cons_of_mem head later)
          exact ⟨absent, List.Subset.trans inside (List.subset_cons_self c rest)⟩

theorem split_ne_nil (sep : Char) (s : List Char) : split sep s ≠ [] := by
  cases s with
  | nil => simp [split]
  | cons c s =>
    rw [split]
    split
    · simp
    · split <;> simp

theorem split_eq_cons_iff {first : List Char} {rest : List (List Char)} :
    split sep s = first :: rest ↔
      s = first ++ rest.flatMap (sep :: ·) ∧ ∀ part ∈ first :: rest, sep ∉ part := by
  constructor
  · intro cut
    refine ⟨?_, fun part listed => (of_mem_split (cut ▸ listed)).1⟩
    induction s generalizing first rest with
    | nil =>
      obtain ⟨rfl, rfl⟩ := List.cons.inj cut
      rfl
    | cons c s ih =>
      obtain ⟨second, others, later⟩ := List.exists_cons_of_ne_nil (split_ne_nil sep s)
      rw [split, later] at cut
      split at cut
      next here =>
        obtain ⟨rfl, rfl⟩ := List.cons.inj cut
        rw [ih later, here, List.nil_append, List.flatMap_cons, List.cons_append]
      next =>
        obtain ⟨rfl, rfl⟩ := List.cons.inj cut
        rw [ih later, List.cons_append]
  · rintro ⟨rfl, absent⟩
    exact split_join absent

theorem splitFirst?_append {before after : List Char} (absent : sep ∉ before) :
    splitFirst? sep (before ++ sep :: after) = some (before, after) := by
  induction before with
  | nil => rw [List.nil_append, splitFirst?, if_pos rfl]
  | cons c before ih =>
    rw [List.mem_cons, not_or] at absent
    obtain ⟨apart, later⟩ := absent
    rw [List.cons_append, splitFirst?, if_neg (Ne.symm apart), ih later]
    rfl

theorem of_splitFirst?_eq_some {before after : List Char}
    (cut : splitFirst? sep s = some (before, after)) :
    s = before ++ sep :: after ∧ sep ∉ before := by
  induction s generalizing before with
  | nil => contradiction
  | cons c rest ih =>
    rw [splitFirst?] at cut
    split at cut
    next here =>
      obtain ⟨rfl, rfl⟩ := Prod.mk.inj (Option.some.inj cut)
      exact ⟨by rw [here, List.nil_append], List.not_mem_nil⟩
    next apart =>
      obtain ⟨⟨start, tail⟩, later, same⟩ := Option.map_eq_some_iff.mp cut
      obtain ⟨rfl, rfl⟩ := Prod.mk.inj same
      obtain ⟨rfl, absent⟩ := ih later
      exact ⟨rfl, List.not_mem_cons_of_ne_of_not_mem (Ne.symm apart) absent⟩

theorem afterStart?_append (start rest : List Char) :
    afterStart? start (start ++ rest) = some rest := by
  induction start with
  | nil => rfl
  | cons c start ih => rw [List.cons_append, afterStart?, if_pos rfl, ih]

theorem eq_append_of_afterStart? {start rest : List Char}
    (found : afterStart? start s = some rest) : s = start ++ rest := by
  fun_induction afterStart? start s with
  | case1 s => exact Option.some.inj found
  | case2 => contradiction
  | case3 start c s ih => rw [ih found, List.cons_append]
  | case4 => contradiction

theorem trim_subset (s : List Char) : trim s ⊆ s := by
  intro c inside
  have kept := List.mem_reverse.mp (List.dropWhile_subset _ (List.mem_reverse.mp inside))
  exact List.dropWhile_subset _ kept

theorem trim_padded {before after : List Char} (opening : ∀ c ∈ before, isSpace c)
    (closing : ∀ c ∈ after, isSpace c) (solid : ∀ c ∈ s, isSpace c = false) :
    trim (before ++ s ++ after) = s := by
  have keep (l : List Char) (solid : ∀ c ∈ l, isSpace c = false) (rest : List Char)
      (full : l ≠ []) : (l ++ rest).dropWhile isSpace = l ++ rest := by
    cases l with
    | nil => exact absurd rfl full
    | cons c l =>
      rw [List.cons_append, List.dropWhile_cons_of_neg]
      rw [solid c List.mem_cons_self]
      exact Bool.false_ne_true
  unfold trim
  rw [List.append_assoc, List.dropWhile_append_of_pos opening]
  by_cases empty : s = []
  · subst empty
    have blank : after.dropWhile isSpace = [] := List.dropWhile_eq_nil_iff.mpr closing
    rw [List.nil_append, blank]
    rfl
  · rw [keep s solid after empty, List.reverse_append, List.dropWhile_append_of_pos]
    · have full : s.reverse ≠ [] := by simpa using empty
      have whole := keep s.reverse (by simpa using solid) [] full
      rw [List.append_nil] at whole
      rw [whole, List.reverse_reverse]
    · intro c inside
      exact closing c (List.mem_reverse.mp inside)

theorem exists_trimmed (s : List Char) : ∃ before after, s = before ++ trim s ++ after ∧
    (∀ c ∈ before, isSpace c) ∧ ∀ c ∈ after, isSpace c := by
  have opening := List.takeWhile_append_dropWhile (p := isSpace) (l := s)
  have closing := List.takeWhile_append_dropWhile (p := isSpace)
    (l := (s.dropWhile isSpace).reverse)
  refine ⟨s.takeWhile isSpace, ((s.dropWhile isSpace).reverse.takeWhile isSpace).reverse, ?_, ?_, ?_⟩
  · rw [trim, List.append_assoc, ← List.reverse_append, closing, List.reverse_reverse, opening]
  · exact fun c inside => List.mem_takeWhile_imp inside
  · exact fun c inside => List.mem_takeWhile_imp (List.mem_reverse.mp inside)

theorem not_isSpace_of_visible (low : 0x21 ≤ c.toNat) (high : c.toNat ≤ 0x7e) :
    isSpace c = false := by
  simp only [isSpace, spaceRanges, List.any_cons, List.any_nil, Bool.or_eq_false_iff,
    Bool.and_eq_false_imp, decide_eq_true_eq, decide_eq_false_iff_not, Nat.not_le, and_true]
  refine ⟨?_, ?_, ?_, ?_, ?_, ?_, ?_, ?_, ?_, ?_⟩ <;> intro _ <;> omega

private theorem digit?_digitChar {d : Nat} (small : d < 10) : digit? d.digitChar = some d := by
  have all : ∀ d < 10, digit? (Nat.digitChar d) = some d := by decide
  exact all d small

private theorem digitsFrom?_append (value : Nat) (s t : List Char) :
    digitsFrom? value (s ++ t) = (digitsFrom? value s).bind fun n => digitsFrom? n t := by
  induction s generalizing value with
  | nil => rfl
  | cons c s ih =>
    rw [List.cons_append, digitsFrom?, digitsFrom?]
    cases digit? c with
    | none => rfl
    | some d => exact ih (10 * value + d)

private theorem digitsFrom?_toDigits (n : Nat) : digitsFrom? 0 (Nat.toDigits 10 n) = some n := by
  induction n using Nat.strongRecOn with
  | ind n ih =>
    by_cases small : n < 10
    · rw [Nat.toDigits_of_lt_base small, digitsFrom?, digit?_digitChar small]
      simp [digitsFrom?]
    · have last : n % 10 < 10 := Nat.mod_lt n (by decide)
      rw [Nat.toDigits_of_base_le (by decide) (Nat.le_of_not_lt small), digitsFrom?_append,
        ih (n / 10) (by omega), Option.bind_some, digitsFrom?, digit?_digitChar last,
        Option.bind_some, digitsFrom?, Nat.div_add_mod]

private theorem toList_repr (n : Nat) : (Nat.repr n).toList = Nat.toDigits 10 n := by
  rw [Nat.repr, String.toList_ofList]

theorem digits?_repr (n : Nat) : digits? (Nat.repr n).toList = some n := by
  rw [toList_repr]
  cases written : Nat.toDigits 10 n with
  | nil => exact absurd written (Nat.toDigits_ne_nil)
  | cons c rest =>
    rw [digits?, ← written, digitsFrom?_toDigits]
    simp

theorem isDigit_of_mem_repr {n : Nat} (inside : c ∈ (Nat.repr n).toList) : c.isDigit := by
  rw [toList_repr] at inside
  exact Nat.isDigit_of_mem_toDigits (by decide) (by decide) inside

private theorem exists_cons_repr (n : Nat) :
    ∃ c rest, (Nat.repr n).toList = c :: rest ∧ c.isDigit := by
  cases written : (Nat.repr n).toList with
  | nil => exact absurd (toList_repr n ▸ written) Nat.toDigits_ne_nil
  | cons c rest => exact ⟨c, rest, rfl, isDigit_of_mem_repr (written ▸ List.mem_cons_self)⟩

theorem word?_wordText (w : UInt64) : word? (wordText w).toList = some w := by
  have value := digits?_repr w.toNat
  obtain ⟨c, rest, written, digit⟩ := exists_cons_repr w.toNat
  rw [wordText, written, word?.eq_def]
  rw [written] at value
  dsimp only
  split
  next tail start =>
    obtain ⟨rfl, -⟩ := List.cons.inj start
    contradiction
  next =>
    rw [value, Option.bind_some, if_pos w.toNat_lt_size, UInt64.ofNat_toNat]

theorem offset?_offsetText (o : Int64) : offset? (offsetText o).toList = some o := by
  have value := digits?_repr o.toInt.natAbs
  have least := o.le_toInt
  have greatest := o.toInt_lt
  rw [offsetText]
  split
  next negative =>
    have size : o.toInt.natAbs ≤ UInt64.size / 2 := by
      simp only [UInt64.size]
      omega
    have same : -(o.toInt.natAbs : Int) = o.toInt := by omega
    rw [String.toList_append]
    change (digits? (Nat.repr o.toInt.natAbs).toList).bind _ = _
    rw [value, Option.bind_some, if_pos size, same, Int64.ofInt_toInt]
  next =>
    have size : o.toInt.natAbs < UInt64.size / 2 := by
      simp only [UInt64.size]
      omega
    have same : (o.toInt.natAbs : Int) = o.toInt := by omega
    obtain ⟨c, rest, written, digit⟩ := exists_cons_repr o.toInt.natAbs
    rw [written] at value ⊢
    rw [offset?.eq_def]
    split
    next tail start =>
      obtain ⟨rfl, -⟩ := List.cons.inj start
      contradiction
    next tail start =>
      obtain ⟨rfl, -⟩ := List.cons.inj start
      contradiction
    next =>
      rw [value, Option.bind_some, if_pos size, same, Int64.ofInt_toInt]

end TypeRecovery.Text
