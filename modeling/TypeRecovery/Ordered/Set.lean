/-! Finite sets kept as strictly increasing lists. Equal sets are equal values, and
enumeration follows the order of the elements. -/
namespace TypeRecovery

structure OrdSet (α : Type) [Ord α] where
  toList : List α
  increasing : toList.Pairwise fun a b => compare a b = .lt

namespace OrdSet
variable {α : Type} [Ord α]

/-- Places an element before the first larger one; an equal element stays as it is. -/
def insertIn (a : α) : List α → List α
  | [] => [a]
  | b :: rest =>
    match compare a b with
    | .lt => a :: b :: rest
    | .eq => b :: rest
    | .gt => b :: insertIn a rest

theorem mem_insertIn_elim {a x : α} {l : List α} (inside : x ∈ insertIn a l) :
    x = a ∨ x ∈ l := by
  induction l with
  | nil => simpa [insertIn] using inside
  | cons b rest ih =>
    rw [insertIn] at inside
    split at inside
    · simpa using inside
    · exact .inr inside
    · rcases List.mem_cons.1 inside with here | later
      · exact .inr (here ▸ List.mem_cons_self)
      · exact (ih later).imp id (List.mem_cons_of_mem _)

theorem increasing_insertIn [Std.TransOrd α] (a : α) {l : List α}
    (increasing : l.Pairwise fun a b => compare a b = .lt) :
    (insertIn a l).Pairwise fun a b => compare a b = .lt := by
  induction l with
  | nil => simp [insertIn]
  | cons b rest ih =>
    rw [insertIn]
    have first := (List.pairwise_cons.1 increasing).1
    have tail := (List.pairwise_cons.1 increasing).2
    split
    · rename_i smaller
      refine List.pairwise_cons.2 ⟨fun x inside => ?_, increasing⟩
      rcases List.mem_cons.1 inside with here | later
      · exact here ▸ smaller
      · exact Std.TransCmp.lt_trans smaller (first x later)
    · exact increasing
    · rename_i larger
      refine List.pairwise_cons.2 ⟨fun x inside => ?_, ih tail⟩
      rcases mem_insertIn_elim inside with here | later
      · exact here ▸ Std.OrientedCmp.lt_of_gt larger
      · exact first x later

theorem mem_insertIn [Std.LawfulEqOrd α] {a x : α} {l : List α} :
    x ∈ insertIn a l ↔ x = a ∨ x ∈ l := by
  refine ⟨mem_insertIn_elim, fun inside => ?_⟩
  induction l with
  | nil => simpa [insertIn] using inside
  | cons b rest ih =>
    rw [insertIn]
    split
    · simpa using inside
    · rename_i same
      have equal : a = b := Std.LawfulEqCmp.eq_of_compare same
      rcases inside with here | later
      · exact here ▸ equal ▸ List.mem_cons_self
      · exact later
    · rcases inside with here | later
      · exact List.mem_cons_of_mem _ (ih (.inl here))
      · rcases List.mem_cons.1 later with here | later
        · exact here ▸ List.mem_cons_self
        · exact List.mem_cons_of_mem _ (ih (.inr later))

instance : Membership α (OrdSet α) := ⟨fun s a => a ∈ s.toList⟩

theorem mem_def {a : α} {s : OrdSet α} : a ∈ s ↔ a ∈ s.toList := Iff.rfl

instance [DecidableEq α] (a : α) (s : OrdSet α) : Decidable (a ∈ s) :=
  inferInstanceAs (Decidable (a ∈ s.toList))

instance [DecidableEq α] : DecidableEq (OrdSet α) := fun s t =>
  decidable_of_iff (s.toList = t.toList) (by cases s; cases t; simp)

def empty : OrdSet α := ⟨[], .nil⟩

instance : EmptyCollection (OrdSet α) := ⟨empty⟩

instance : Inhabited (OrdSet α) := ⟨empty⟩

def size (s : OrdSet α) : Nat := s.toList.length

def isEmpty (s : OrdSet α) : Bool := s.toList.isEmpty

@[simp] theorem not_mem_empty {x : α} : ¬ x ∈ (∅ : OrdSet α) := List.not_mem_nil

def filter (s : OrdSet α) (p : α → Bool) : OrdSet α :=
  ⟨s.toList.filter p, s.increasing.filter p⟩

@[simp] theorem mem_filter {s : OrdSet α} {p : α → Bool} {x : α} :
    x ∈ s.filter p ↔ x ∈ s ∧ p x := by
  simp [filter, mem_def]

variable [Std.TransOrd α]

def insert (s : OrdSet α) (a : α) : OrdSet α :=
  ⟨insertIn a s.toList, increasing_insertIn a s.increasing⟩

/-- The last element goes in first, so that an increasing list goes in from the front. -/
def insertAll (s : OrdSet α) (l : List α) : OrdSet α :=
  l.foldr (fun a s => s.insert a) s

def ofList (l : List α) : OrdSet α := insertAll ∅ l

def union (s t : OrdSet α) : OrdSet α := s.insertAll t.toList

variable [Std.LawfulEqOrd α]

@[simp] theorem mem_insert {s : OrdSet α} {a x : α} : x ∈ s.insert a ↔ x = a ∨ x ∈ s :=
  mem_insertIn

@[simp] theorem mem_insertAll {s : OrdSet α} {l : List α} {x : α} :
    x ∈ s.insertAll l ↔ x ∈ s ∨ x ∈ l := by
  induction l with
  | nil => simp [insertAll]
  | cons a rest ih =>
    have step : s.insertAll (a :: rest) = (s.insertAll rest).insert a := rfl
    rw [step, mem_insert, ih, List.mem_cons]
    grind

@[simp] theorem mem_ofList {l : List α} {x : α} : x ∈ ofList l ↔ x ∈ l := by
  simp [ofList]

@[simp] theorem mem_union {s t : OrdSet α} {x : α} : x ∈ s.union t ↔ x ∈ s ∨ x ∈ t := by
  exact mem_insertAll

end OrdSet
end TypeRecovery
