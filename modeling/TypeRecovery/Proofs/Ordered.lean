import Mathlib.Data.List.Nodup
import TypeRecovery.Ordered.Map
import TypeRecovery.Ordered.Set

/-! Ordered maps and sets seen through look-up and membership. A map is determined by what it
holds at each key and a set by its members, so that two ways to build one can be compared. -/
namespace TypeRecovery

namespace OrdMap

/-- The values that a list of entries has at a key, in order. -/
def valuesAt {κ ν : Type} [DecidableEq κ] (k : κ) (l : List (κ × ν)) : List ν :=
  l.filterMap fun entry => if entry.1 = k then some entry.2 else none

theorem mem_valuesAt {κ ν : Type} [DecidableEq κ] {k : κ} {l : List (κ × ν)} {v : ν} :
    v ∈ valuesAt k l ↔ (k, v) ∈ l := by
  simp [valuesAt]

variable {κ ν : Type} [Ord κ]

theorem contains_iff (m : OrdMap κ ν) (k : κ) : m.contains k ↔ ∃ v, m.get? k = some v := by
  rw [contains, Option.isSome_iff_exists]

variable [Std.TransOrd κ]

private theorem irreflexive (k : κ) : compare k k ≠ .lt := by simp

theorem nodup_keys (m : OrdMap κ ν) : m.keys.Nodup := by
  rw [keys, List.Nodup, List.pairwise_map]
  apply m.increasing.imp
  intro a b strict same
  exact irreflexive b.1 (same ▸ strict)

theorem insertAll_append (m : OrdMap κ ν) (first second : List (κ × ν)) :
    m.insertAll (first ++ second) = (m.insertAll first).insertAll second := by
  rw [insertAll, List.foldl_append]
  rfl

variable [Std.LawfulEqOrd κ]

theorem get?_eq_some_iff (m : OrdMap κ ν) (k : κ) (v : ν) :
    m.get? k = some v ↔ (k, v) ∈ m.entries := by
  obtain ⟨entries, increasing⟩ := m
  simp only [get?]
  induction entries with
  | nil => simp
  | cons entry rest ih =>
    obtain ⟨k', v'⟩ := entry
    have first := (List.pairwise_cons.mp increasing).1
    have tail := ih (List.pairwise_cons.mp increasing).2
    by_cases here : k = k'
    · subst here
      have absent : (k, v) ∉ rest := by
        intro later
        exact irreflexive k (first (k, v) later)
      simp [Std.ReflCmp.compare_self, absent, eq_comm]
    · have apart : (compare k k' == .eq) = false := by
        simpa using fun same : compare k k' = .eq => here (Std.LawfulEqCmp.eq_of_compare same)
      simp only [List.find?_cons, apart, tail, List.mem_cons, Prod.mk.injEq, here, false_and,
        false_or]

theorem get?_insert [DecidableEq κ] (m : OrdMap κ ν) (k x : κ) (v : ν) :
    (m.insert k v).get? x = if x = k then some v else m.get? x := by
  split
  next same => rw [same, get?_insert_self]
  next distinct => exact get?_insert_of_ne m v distinct

theorem contains_insert [DecidableEq κ] {m : OrdMap κ ν} {k x : κ} {v : ν} :
    (m.insert k v).contains x ↔ x = k ∨ m.contains x := by
  rw [contains, get?_insert, contains]
  split
  next same => simp [same]
  next distinct => simp [distinct]

theorem mem_keys (m : OrdMap κ ν) (k : κ) : k ∈ m.keys ↔ ∃ v, m.get? k = some v := by
  simp only [keys, List.mem_map, Prod.exists, exists_and_right, exists_eq_right,
    get?_eq_some_iff]

theorem mem_values (m : OrdMap κ ν) (v : ν) : v ∈ m.values ↔ ∃ k, m.get? k = some v := by
  simp only [values, List.mem_map, Prod.exists, exists_eq_right, get?_eq_some_iff]

theorem eq_of_increasing {α : Type} {r : α → α → Prop} {as bs : List α}
    (asymmetric : ∀ a b, r a b → ¬ r b a) (left : as.Pairwise r) (right : bs.Pairwise r)
    (same : ∀ a, a ∈ as ↔ a ∈ bs) : as = bs := by
  have irreflexive (a : α) : ¬ r a a := fun loop => asymmetric a a loop loop
  have distinct {l : List α} (increasing : l.Pairwise r) : l.Nodup := by
    apply increasing.imp
    intro a b strict equal
    exact irreflexive b (equal ▸ strict)
  have permuted : as.Perm bs := (List.perm_ext_iff_of_nodup (distinct left) (distinct right)).mpr same
  exact permuted.eq_of_pairwise (fun a b _ _ up down => absurd down (asymmetric a b up)) left right

theorem ext_get? {m n : OrdMap κ ν} (same : ∀ k, m.get? k = n.get? k) : m = n := by
  have members (entry : κ × ν) : entry ∈ m.entries ↔ entry ∈ n.entries := by
    rw [← get?_eq_some_iff, ← get?_eq_some_iff, same]
  have equal : m.entries = n.entries := by
    apply eq_of_increasing _ m.increasing n.increasing members
    intro a b up down
    rw [Std.OrientedCmp.gt_of_lt up] at down
    contradiction
  cases m
  cases n
  congr

theorem get?_insertAll (m : OrdMap κ ν) (l : List (κ × ν)) (distinct : (l.map Prod.fst).Nodup)
    (k : κ) (v : ν) :
    (m.insertAll l).get? k = some v ↔
      (k, v) ∈ l ∨ (k ∉ l.map Prod.fst ∧ m.get? k = some v) := by
  classical
  induction l generalizing m with
  | nil => simp [insertAll]
  | cons entry rest ih =>
    obtain ⟨k', v'⟩ := entry
    have step : m.insertAll ((k', v') :: rest) = (m.insert k' v').insertAll rest := rfl
    obtain ⟨fresh, tail⟩ := List.nodup_cons.mp distinct
    rw [step, ih (m.insert k' v') tail, get?_insert]
    by_cases here : k = k'
    · subst here
      have absent : (k, v) ∉ rest := fun later => fresh (List.mem_map.mpr ⟨(k, v), later, rfl⟩)
      simp only [if_true, absent, false_or, List.mem_cons, List.map_cons, Prod.mk.injEq, true_and,
        true_or, not_true_eq_false, false_and, or_false, Option.some.injEq]
      exact ⟨fun found => found.2.symm, fun found => ⟨fresh, found.symm⟩⟩
    · simp [here]

theorem get?_ofList (l : List (κ × ν)) (distinct : (l.map Prod.fst).Nodup) (k : κ) (v : ν) :
    (ofList l).get? k = some v ↔ (k, v) ∈ l := by
  rw [ofList, get?_insertAll _ l distinct]
  simp

theorem get?_insertAll_eq [DecidableEq κ] (m : OrdMap κ ν) (l : List (κ × ν)) (k : κ) :
    (m.insertAll l).get? k = (valuesAt k l).getLast?.or (m.get? k) := by
  induction l generalizing m with
  | nil => rfl
  | cons entry rest ih =>
    have step : m.insertAll (entry :: rest) = (m.insert entry.1 entry.2).insertAll rest := rfl
    rw [step, ih, get?_insert]
    by_cases here : entry.1 = k
    · have first : valuesAt k (entry :: rest) = entry.2 :: valuesAt k rest :=
        List.filterMap_cons_some (if_pos here)
      rw [if_pos here.symm, first, List.getLast?_cons, Option.or_some, Option.some_or]
    · have first : valuesAt k (entry :: rest) = valuesAt k rest :=
        List.filterMap_cons_none (if_neg here)
      rw [if_neg (Ne.symm here), first]

theorem get?_ofList_eq [DecidableEq κ] (l : List (κ × ν)) (k : κ) :
    (ofList l).get? k = (valuesAt k l).getLast? := by
  rw [ofList, get?_insertAll_eq, get?_empty, Option.or_none]

theorem get?_ofList_map [DecidableEq κ] {μ : Type} (l : List (κ × ν)) (f : ν → μ) (k : κ) :
    (ofList (l.map fun entry => (entry.1, f entry.2))).get? k = ((ofList l).get? k).map f := by
  have values : valuesAt k (l.map fun entry => (entry.1, f entry.2)) = (valuesAt k l).map f := by
    rw [valuesAt, valuesAt, List.filterMap_map, List.map_filterMap]
    apply List.filterMap_congr
    intro entry _
    by_cases here : entry.1 = k <;> simp [here]
  rw [get?_ofList_eq, get?_ofList_eq, values, List.getLast?_map]

theorem ofList_entries (m : OrdMap κ ν) : ofList m.entries = m := by
  apply ext_get?
  intro k
  apply Option.ext
  intro v
  rw [get?_ofList _ (nodup_keys m), get?_eq_some_iff]

end OrdMap

namespace OrdSet
variable {α : Type} [Ord α] [Std.TransOrd α]

theorem nodup (s : OrdSet α) : s.toList.Nodup := by
  apply s.increasing.imp
  intro a b strict same
  exact OrdMap.irreflexive b (same ▸ strict)

theorem ext_mem {s t : OrdSet α} (same : ∀ a, a ∈ s ↔ a ∈ t) : s = t := by
  have equal : s.toList = t.toList := by
    apply OrdMap.eq_of_increasing _ s.increasing t.increasing same
    intro a b up down
    rw [Std.OrientedCmp.gt_of_lt up] at down
    contradiction
  cases s
  cases t
  congr

variable {s t : OrdSet α}

theorem size_le_of_subset (inside : ∀ a ∈ s, a ∈ t) : s.size ≤ t.size :=
  s.nodup.length_le_of_subset inside

theorem size_lt_of_subset {a : α} (inside : ∀ a ∈ s, a ∈ t) (new : a ∈ t) (absent : a ∉ s) :
    s.size < t.size := by
  have distinct : (a :: s.toList).Nodup := List.nodup_cons.mpr ⟨absent, s.nodup⟩
  apply Nat.lt_of_succ_le
  apply distinct.length_le_of_subset
  exact List.cons_subset.mpr ⟨new, inside⟩

end OrdSet

namespace OrdMap

theorem get?_mapValues {κ ν μ : Type} [Ord κ] [Std.TransOrd κ] [Std.LawfulEqOrd κ] (m : OrdMap κ ν)
    (f : κ → ν → μ) (k : κ) : (m.mapValues f).get? k = (m.get? k).map (f k) := by
  apply Option.ext
  intro v
  simp only [get?_eq_some_iff, mapValues, List.mem_map, Prod.mk.injEq, Option.map_eq_some_iff]
  constructor
  · intro given
    obtain ⟨⟨_, value⟩, listed, rfl, rfl⟩ := given
    exact ⟨value, listed, rfl⟩
  · intro given
    obtain ⟨value, listed, rfl⟩ := given
    exact ⟨(k, value), listed, rfl, rfl⟩

variable {κ α : Type} [Ord κ] [Std.TransOrd κ] [Ord α] [Std.TransOrd α]

def putAll (m : OrdMap κ (OrdSet α)) (l : List (κ × α)) : OrdMap κ (OrdSet α) :=
  l.foldl (fun m entry => m.modifyD entry.1 ∅ fun set => set.insert entry.2) m

def Holds (m : OrdMap κ (OrdSet α)) (k : κ) (a : α) : Prop := ∃ set, m.get? k = some set ∧ a ∈ set

variable [Std.LawfulEqOrd κ] {m : OrdMap κ (OrdSet α)} {l : List (κ × α)} {k x : κ} {a b : α}

theorem contains_putAll [DecidableEq κ] :
    (m.putAll l).contains k ↔ (∃ a, (k, a) ∈ l) ∨ m.contains k := by
  induction l generalizing m with
  | nil => simp [putAll]
  | cons entry rest ih =>
    have step : m.putAll (entry :: rest) =
      (m.modifyD entry.1 ∅ fun set => set.insert entry.2).putAll rest := rfl
    rw [step, ih, modifyD, contains_insert, ← or_assoc]
    simp only [List.mem_cons, Prod.ext_iff, exists_or, exists_and_left, exists_eq, and_true,
      or_comm]

variable [Std.LawfulEqOrd α]

theorem holds_put [DecidableEq κ] : (m.modifyD x ∅ fun set => set.insert b).Holds k a ↔
    (k = x ∧ a = b) ∨ m.Holds k a := by
  simp only [Holds, modifyD, get?_insert]
  split
  next same =>
    subst same
    cases m.get? k with
    | none => simp
    | some set => simp
  next apart => simp [apart]

theorem holds_putAll [DecidableEq κ] : (m.putAll l).Holds k a ↔ (k, a) ∈ l ∨ m.Holds k a := by
  induction l generalizing m with
  | nil => simp [putAll]
  | cons entry rest ih =>
    have step : m.putAll (entry :: rest) =
      (m.modifyD entry.1 ∅ fun set => set.insert entry.2).putAll rest := rfl
    rw [step, ih, holds_put, List.mem_cons, Prod.ext_iff, ← or_assoc]
    exact or_congr_left or_comm

/-- Sets that are filled from nothing hold what was put into them, and are there for no other
keys. -/
theorem get?_putAll [DecidableEq κ] {set : OrdSet α} : (putAll ∅ l).get? k = some set ↔
    (∃ a, (k, a) ∈ l) ∧ ∀ a, a ∈ set ↔ (k, a) ∈ l := by
  have known : (putAll ∅ l).contains k ↔ ∃ a, (k, a) ∈ l :=
    contains_putAll.trans (or_iff_left (by simp [contains]))
  have members (a : α) : (putAll ∅ l).Holds k a ↔ (k, a) ∈ l :=
    holds_putAll.trans (or_iff_left (by simp [Holds]))
  rw [← known, contains_iff]
  constructor
  · intro found
    refine ⟨⟨set, found⟩, fun a => ?_⟩
    rw [← members, Holds, found]
    simp
  · intro given
    obtain ⟨⟨other, found⟩, inside⟩ := given
    have same : other = set := by
      apply OrdSet.ext_mem
      intro a
      rw [inside, ← members, Holds, found]
      simp
    rw [found, same]

/-- The order in which elements are put in does not matter, nor does putting one in again. -/
theorem putAll_congr [DecidableEq κ] {l' : List (κ × α)} (same : ∀ entry, entry ∈ l ↔ entry ∈ l') :
    putAll ∅ l = putAll ∅ l' := by
  apply ext_get?
  intro k
  apply Option.ext
  intro set
  simp only [get?_putAll, same]

end OrdMap
end TypeRecovery
