/-! Finite maps kept as lists of entries with strictly increasing keys. Equal maps are
equal values, and enumeration follows the order of the keys. -/
namespace TypeRecovery

structure OrdMap (κ ν : Type) [Ord κ] where
  entries : List (κ × ν)
  increasing : entries.Pairwise fun a b => compare a.1 b.1 = .lt

namespace OrdMap
variable {κ ν : Type} [Ord κ]

/-- Places an entry before the first larger key; at an equal key the value is replaced. -/
def insertIn (k : κ) (v : ν) : List (κ × ν) → List (κ × ν)
  | [] => [(k, v)]
  | (k', v') :: rest =>
    match compare k k' with
    | .lt => (k, v) :: (k', v') :: rest
    | .eq => (k', v) :: rest
    | .gt => (k', v') :: insertIn k v rest

theorem key_insertIn_elim {k x : κ} {v : ν} {l : List (κ × ν)}
    (inside : x ∈ (insertIn k v l).map Prod.fst) : x = k ∨ x ∈ l.map Prod.fst := by
  induction l with
  | nil => simpa [insertIn] using inside
  | cons entry rest ih =>
    obtain ⟨k', v'⟩ := entry
    rw [insertIn] at inside
    split at inside
    · simpa using inside
    · exact .inr (by simpa using inside)
    · rw [List.map_cons] at inside
      rcases List.mem_cons.1 inside with here | later
      · exact .inr (by simp [here])
      · exact (ih later).imp id (by simp +contextual)

theorem increasing_insertIn [Std.TransOrd κ] (k : κ) (v : ν) {l : List (κ × ν)}
    (increasing : l.Pairwise fun a b => compare a.1 b.1 = .lt) :
    (insertIn k v l).Pairwise fun a b => compare a.1 b.1 = .lt := by
  induction l with
  | nil => simp [insertIn]
  | cons entry rest ih =>
    obtain ⟨k', v'⟩ := entry
    rw [insertIn]
    have first := (List.pairwise_cons.1 increasing).1
    have tail := (List.pairwise_cons.1 increasing).2
    split
    · rename_i smaller
      refine List.pairwise_cons.2 ⟨fun x inside => ?_, increasing⟩
      rcases List.mem_cons.1 inside with here | later
      · exact here ▸ smaller
      · exact Std.TransCmp.lt_trans smaller (first x later)
    · exact List.pairwise_cons.2 ⟨first, tail⟩
    · rename_i larger
      refine List.pairwise_cons.2 ⟨fun x inside => ?_, ih tail⟩
      rcases key_insertIn_elim (List.mem_map_of_mem inside) with here | later
      · exact here ▸ Std.OrientedCmp.lt_of_gt larger
      · obtain ⟨e, there, same⟩ := List.mem_map.1 later
        exact same ▸ first e there

instance [DecidableEq κ] [DecidableEq ν] : DecidableEq (OrdMap κ ν) := fun m n =>
  decidable_of_iff (m.entries = n.entries) (by cases m; cases n; simp)

def empty : OrdMap κ ν := ⟨[], .nil⟩

instance : EmptyCollection (OrdMap κ ν) := ⟨empty⟩

instance : Inhabited (OrdMap κ ν) := ⟨empty⟩

def get? (m : OrdMap κ ν) (k : κ) : Option ν :=
  (m.entries.find? fun entry => compare k entry.1 == .eq).map Prod.snd

def contains (m : OrdMap κ ν) (k : κ) : Bool := (m.get? k).isSome

def keys (m : OrdMap κ ν) : List κ := m.entries.map Prod.fst

def values (m : OrdMap κ ν) : List ν := m.entries.map Prod.snd

def size (m : OrdMap κ ν) : Nat := m.entries.length

def isEmpty (m : OrdMap κ ν) : Bool := m.entries.isEmpty

def mapValues {μ : Type} (m : OrdMap κ ν) (f : κ → ν → μ) : OrdMap κ μ :=
  ⟨m.entries.map fun entry => (entry.1, f entry.1 entry.2),
    List.pairwise_map.2 m.increasing⟩

@[simp] theorem get?_empty (k : κ) : (∅ : OrdMap κ ν).get? k = none := rfl

variable [Std.TransOrd κ]

def insert (m : OrdMap κ ν) (k : κ) (v : ν) : OrdMap κ ν :=
  ⟨insertIn k v m.entries, increasing_insertIn k v m.increasing⟩

/-- Later entries replace earlier ones of the same key. -/
def insertAll (m : OrdMap κ ν) (l : List (κ × ν)) : OrdMap κ ν :=
  l.foldl (fun m entry => m.insert entry.1 entry.2) m

def ofList (l : List (κ × ν)) : OrdMap κ ν := insertAll ∅ l

/-- Updates the value at a key, starting from the given value where there is none. -/
def modifyD (m : OrdMap κ ν) (k : κ) (start : ν) (f : ν → ν) : OrdMap κ ν :=
  m.insert k (f ((m.get? k).getD start))

theorem get?_insert_self (m : OrdMap κ ν) (k : κ) (v : ν) : (m.insert k v).get? k = some v := by
  obtain ⟨l, increasing⟩ := m
  simp only [get?, insert]
  clear increasing
  induction l with
  | nil => simp [insertIn, Std.ReflCmp.compare_self]
  | cons entry rest ih =>
    obtain ⟨k', v'⟩ := entry
    rw [insertIn]
    split
    · simp [Std.ReflCmp.compare_self]
    · rename_i same
      simp [same]
    · rename_i larger
      simpa [larger] using ih

theorem get?_insert_of_ne [Std.LawfulEqOrd κ] (m : OrdMap κ ν) {k x : κ} (v : ν)
    (distinct : x ≠ k) : (m.insert k v).get? x = m.get? x := by
  obtain ⟨l, increasing⟩ := m
  have apart : (compare x k == .eq) = false := by
    simpa using fun same : compare x k = .eq => distinct (Std.LawfulEqCmp.eq_of_compare same)
  simp only [get?, insert]
  clear increasing
  induction l with
  | nil => simp [insertIn, apart]
  | cons entry rest ih =>
    obtain ⟨k', v'⟩ := entry
    rw [insertIn]
    split
    · simp [apart]
    · rename_i same
      have equal : k = k' := Std.LawfulEqCmp.eq_of_compare same
      subst equal
      simp [apart]
    · by_cases here : (compare x k' == .eq) = true
      · simp [here]
      · have skip : (compare x k' == .eq) = false := by simpa using here
        simpa [skip] using ih

end OrdMap
end TypeRecovery
