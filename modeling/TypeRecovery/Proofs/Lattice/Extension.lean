import Mathlib.Data.Finset.Card
import TypeRecovery.Proofs.Lattice.Laws
import TypeRecovery.Proofs.Ordered

/-! Extending the lattice. Subtyping can be told without a look at what is sealed, so sealing more
atoms moves no bound, neither of old nor of new variables. What an extension adds is the new atoms
themselves, once each, whatever the order in which they come. -/
namespace TypeRecovery

theorem OrdSet.size_eq_card {α : Type} [Ord α] [Std.TransOrd α] [DecidableEq α] (s : OrdSet α) :
    s.size = s.toList.toFinset.card :=
  (List.toFinset_card_of_nodup s.nodup).symm

namespace AtomLattice
variable (l other : AtomLattice) (a b : TypeVar)

private theorem isSubtype_irrelevant : l.isSubtype a b = other.isSubtype a b := by
  rw [Bool.eq_iff_iff, isSubtype_iff, isSubtype_iff]

variable {l} in
theorem IsMeet.eq {m n : TypeVar} (first : l.IsMeet m a b) (second : l.IsMeet n a b) : m = n :=
  isSubtype_antisymm l (second.2.2 m first.1 first.2.1) (first.2.2 n second.1 second.2.1)

variable {l} in
theorem IsJoin.eq {j k : TypeVar} (first : l.IsJoin j a b) (second : l.IsJoin k a b) : j = k :=
  isSubtype_antisymm l (first.2.2 k second.1 second.2.1) (second.2.2 j first.1 first.2.1)

private theorem meet_irrelevant : l.meet a b = other.meet a b := by
  have bound := isMeet_meet other a b
  simp only [IsMeet, isSubtype_irrelevant other l] at bound
  exact (isMeet_meet l a b).eq a b bound

private theorem join_irrelevant : l.join a b = other.join a b := by
  have bound := isJoin_join other a b
  simp only [IsJoin, isSubtype_irrelevant other l] at bound
  exact (isJoin_join l a b).eq a b bound

variable {l} {atoms : List TypeVar} {v : TypeVar}

theorem mem_sealedAtoms_extend : v ∈ (l.extend atoms).sealedAtoms ↔
    v ∈ l.sealedAtoms ∨ v ∈ atoms ∧ v.ground? = none := by
  rw [extend, OrdSet.mem_insertAll, List.mem_filter, Option.isNone_iff_eq_none]

theorem mem_atoms_extend : v ∈ (l.extend atoms).atoms ↔
    v ∈ l.atoms ∨ v ∈ atoms ∧ v.ground? = none := by
  simp only [AtomLattice.atoms, OrdSet.mem_union, mem_sealedAtoms_extend, or_assoc]

private theorem ground?_of_mem_innerAtoms (inside : v ∈ innerAtoms) : ∃ g, v.ground? = some g := by
  obtain ⟨g, _, rfl⟩ := List.mem_map.mp (OrdSet.mem_ofList.mp inside)
  exact ⟨g, Ground.ground?_toVar g⟩

theorem size_atoms_extend : (l.extend atoms).atoms.size = l.atoms.size +
    (atoms.toFinset.filter fun v => v.ground? = none ∧ v ∉ l.sealedAtoms).card := by
  have parts : (l.extend atoms).atoms.toList.toFinset = l.atoms.toList.toFinset ∪
      atoms.toFinset.filter fun v => v.ground? = none ∧ v ∉ l.sealedAtoms := by
    ext v
    simp only [List.mem_toFinset, Finset.mem_union, Finset.mem_filter, ← OrdSet.mem_def,
      mem_atoms_extend]
    by_cases known : v ∈ l.sealedAtoms
    · simp [AtomLattice.atoms, known]
    · simp [known]
  have apart : Disjoint l.atoms.toList.toFinset
      (atoms.toFinset.filter fun v => v.ground? = none ∧ v ∉ l.sealedAtoms) := by
    rw [Finset.disjoint_left]
    intro v old new
    obtain ⟨-, foreign, unsealed⟩ := Finset.mem_filter.mp new
    have inner : v ∈ innerAtoms :=
      (OrdSet.mem_union.mp (List.mem_toFinset.mp old)).resolve_right unsealed
    obtain ⟨g, named⟩ := ground?_of_mem_innerAtoms inner
    rw [named] at foreign
    contradiction
  rw [OrdSet.size_eq_card, parts, Finset.card_union_of_disjoint apart, OrdSet.size_eq_card]

/-- Only the members of the extensions count, not their order or how often they are named. -/
theorem extend_extend {first second : List TypeVar}
    (same : ∀ v, v ∈ atoms ↔ v ∈ first ∨ v ∈ second) :
    (l.extend first).extend second = l.extend atoms := by
  have equal : ((l.extend first).extend second).sealedAtoms = (l.extend atoms).sealedAtoms := by
    apply OrdSet.ext_mem
    intro v
    simp only [mem_sealedAtoms_extend, same, or_and_right, or_assoc]
  cases l
  exact congrArg AtomLattice.mk equal

/-- A variable that is no fixed atom is comparable with the sentinels and itself only. -/
theorem comparable_iff (foreign : v.ground? = none) :
    l.isSubtype v b ∨ l.isSubtype b v ↔ b = v ∨ b = top ∨ b = bottom := by
  have unnamed (g : Ground) : v ≠ g.toVar := by
    intro same
    rw [same, Ground.ground?_toVar] at foreign
    contradiction
  constructor
  · intro related
    rcases related with up | down
    · rcases (isSubtype_iff l).mp up with same | low | high | ⟨g, _, same, _⟩
      · exact .inl same.symm
      · exact absurd low (unnamed .bottom)
      · exact .inr (.inl high)
      · exact absurd same (unnamed g)
    · rcases (isSubtype_iff l).mp down with same | low | high | ⟨_, g, _, same, _⟩
      · exact .inl same
      · exact .inr (.inr low)
      · exact absurd high (unnamed .top)
      · exact absurd same (unnamed g)
  · intro given
    rcases given with rfl | rfl | rfl
    · exact .inl (isSubtype_refl l b)
    · exact .inl (isSubtype_top l v)
    · exact .inr (bottom_isSubtype l v)

variable (l atoms) in
/-- What an extension adds, and all that it leaves as it was. -/
structure Conservative : Prop where
  mem_sealedAtoms (v : TypeVar) : v ∈ (l.extend atoms).sealedAtoms ↔
    v ∈ l.sealedAtoms ∨ v ∈ atoms ∧ v.ground? = none
  mem_atoms (v : TypeVar) : v ∈ (l.extend atoms).atoms ↔
    v ∈ l.atoms ∨ v ∈ atoms ∧ v.ground? = none
  size_atoms : (l.extend atoms).atoms.size = l.atoms.size +
    (atoms.toFinset.filter fun v => v.ground? = none ∧ v ∉ l.sealedAtoms).card
  /-- Two extensions are one, in any order and with any repetition. -/
  extend_extend (first second : List TypeVar) : (∀ v, v ∈ atoms ↔ v ∈ first ∨ v ∈ second) →
    (l.extend first).extend second = l.extend atoms
  isSubtype_eq (a b : TypeVar) : (l.extend atoms).isSubtype a b = l.isSubtype a b
  meet_eq (a b : TypeVar) : (l.extend atoms).meet a b = l.meet a b
  join_eq (a b : TypeVar) : (l.extend atoms).join a b = l.join a b
  comparable (v b : TypeVar) : v ∈ (l.extend atoms).sealedAtoms →
    ((l.extend atoms).isSubtype v b ∨ (l.extend atoms).isSubtype b v ↔
      b = v ∨ b = top ∨ b = bottom)

/-- Extending is conservative. Every lattice comes from the fixed one by extension, so that no
sealed atom is a fixed one. -/
theorem extend_conservative (past atoms : List TypeVar) : (extend {} past).Conservative atoms where
  mem_sealedAtoms _ := mem_sealedAtoms_extend
  mem_atoms _ := mem_atoms_extend
  size_atoms := size_atoms_extend
  extend_extend _ _ := extend_extend
  isSubtype_eq := isSubtype_irrelevant _ _
  meet_eq := meet_irrelevant _ _
  join_eq := join_irrelevant _ _
  comparable v b registered := by
    apply comparable_iff
    rcases mem_sealedAtoms_extend.mp registered with before | ⟨_, foreign⟩
    · rcases mem_sealedAtoms_extend.mp before with none | ⟨_, foreign⟩
      · exact absurd none OrdSet.not_mem_empty
      · exact foreign
    · exact foreign

end AtomLattice
end TypeRecovery
