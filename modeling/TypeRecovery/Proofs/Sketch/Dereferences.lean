import TypeRecovery.Proofs.Sketch.Layouts

/-! Which dereference counts at an offset. The nodes of a sketch are met in the order of their
variables, which puts loads before stores and small accesses before large ones. So the load of least
size counts, or the store of least size where nothing is loaded. -/
namespace TypeRecovery

structure Deref where
  access : Label
  size : UInt64
  offset : Int64

def Deref.reach (d : Deref) (v : TypeVar) : TypeVar :=
  (v.extend d.access).extend (.deref d.size d.offset)

/-- One past the last byte, counted in 64 bits. -/
def Deref.limit (d : Deref) : UInt64 := UInt64.ofNat (d.offset.toInt.toNat + d.size.toNat)

def Deref.entry (d : Deref) (v : TypeVar) : Int × Nat × TypeVar :=
  (d.offset.toInt, d.size.toNat, d.reach v)

private theorem TypeVar.compare_below (v : TypeVar) (a b : Label) (as bs : List Label) :
    compare (⟨v.base, v.path ++ a :: as⟩ : TypeVar) ⟨v.base, v.path ++ b :: bs⟩ =
      (compare a b).then (compare as bs) := by
  have paths (way : List Label) :
      compare (way ++ a :: as) (way ++ b :: bs) = (compare a b).then (compare as bs) := by
    induction way with
    | nil => exact List.compare_cons_cons
    | cons first way ih =>
      rw [List.cons_append, List.cons_append, List.compare_cons_cons, Std.compare_self, ih]
      rfl
  change (compare v.base v.base).then (compare (v.path ++ a :: as) (v.path ++ b :: bs)) = _
  rw [Std.compare_self, paths]
  rfl

private theorem TypeVar.compare_extend (v : TypeVar) (a b : Label) :
    compare (v.extend a) (v.extend b) = compare a b := by
  rw [extend, extend, compare_below]
  exact Ordering.then_eq

private theorem Deref.compare_reach (d e : Deref) (v : TypeVar) : compare (d.reach v) (e.reach v) =
    (compare d.access e.access).then
      (compare (Label.deref d.size d.offset) (Label.deref e.size e.offset)) := by
  simp only [reach, TypeVar.extend, List.append_assoc, List.singleton_append]
  rw [TypeVar.compare_below, List.compare_cons_cons]
  exact congrArg _ Ordering.then_eq

private theorem Label.compare_deref (n k : UInt64) (offset : Int64) :
    compare (Label.deref n offset) (Label.deref k offset) = compare (n.toNat : Int) k.toNat := by
  change compare [4, (n.toNat : Int), offset.toInt] [4, (k.toNat : Int), offset.toInt] = _
  simp [List.compare_cons_cons]

private theorem exists_map_eq {α β : Type} {p : β → Prop} {f : β → α} {l : List α}
    (each : ∀ a ∈ l, ∃ b, p b ∧ f b = a) : ∃ m : List β, (∀ b ∈ m, p b) ∧ m.map f = l := by
  induction l with
  | nil => exact ⟨[], by simp, rfl⟩
  | cons a rest ih =>
    obtain ⟨b, holds, rfl⟩ := each a List.mem_cons_self
    obtain ⟨m, all, rfl⟩ := ih fun x inside => each x (List.mem_cons_of_mem _ inside)
    exact ⟨b :: m, List.forall_mem_cons.mpr ⟨holds, all⟩, rfl⟩

namespace Sketch
variable {s : Sketch} {v w : TypeVar} {d e : Deref}

/-- Both the access and the bytes are nodes. -/
structure Dereferences (s : Sketch) (v : TypeVar) (d : Deref) : Prop where
  access : d.access = .load ∨ d.access = .store
  through : s.nodes.contains (v.extend d.access)
  reached : s.nodes.contains (d.reach v)

/-- The dereference that counts at its offset: a load rather than a store, and of least size. -/
structure Decides (s : Sketch) (v : TypeVar) (d : Deref) : Prop where
  found : s.Dereferences v d
  unloaded : d.access = .store → ∀ e, s.Dereferences v e → e.offset = d.offset → e.access = .store
  least : ∀ e, s.Dereferences v e → e.offset = d.offset → e.access = d.access → d.size ≤ e.size

theorem Decides.unique (first : s.Decides v d) (second : s.Decides v e)
    (same : d.offset = e.offset) : d = e := by
  have access : d.access = e.access := by
    rcases first.found.access with loaded | stored
    · rcases second.found.access with loaded' | stored
      · rw [loaded, loaded']
      · rw [stored, second.unloaded stored d first.found same]
    · rw [stored, first.unloaded stored e second.found same.symm]
  have size : d.size = e.size := UInt64.le_antisymm
    (first.least e second.found same.symm access.symm) (second.least d first.found same access)
  cases d
  cases e
  congr

private theorem children_increasing : (s.children v).Pairwise fun a b => compare a.2 b.2 = .lt := by
  rw [children, List.pairwise_filterMap, OrdMap.keys, List.pairwise_map]
  apply s.nodes.increasing.imp
  intro a b less x first y second
  obtain ⟨_, _, rfl⟩ := Option.map_eq_some_iff.mp first
  obtain ⟨_, _, rfl⟩ := Option.map_eq_some_iff.mp second
  exact less

/-- The bytes that one access of a pointer reaches, as offset, size and variable. -/
def reachedBy (s : Sketch) (access : Label × TypeVar) : List (Int × Nat × TypeVar) :=
  match access.1 with
  | .load | .store => (s.children access.2).filterMap fun target =>
    match target.1 with
    | .deref size offset => some (offset.toInt, size.toNat, target.2)
    | _ => none
  | _ => []

private theorem reachedBy_sublist (access : Label × TypeVar) :
    ((s.reachedBy access).map fun bytes => bytes.2.2).Sublist
      ((s.children access.2).map Prod.snd) := by
  have kept (children : List (Label × TypeVar)) :
      ((children.filterMap fun target =>
        match target.1 with
        | .deref size offset => some (offset.toInt, size.toNat, target.2)
        | _ => none).map fun bytes => bytes.2.2).Sublist (children.map Prod.snd) := by
    induction children with
    | nil => exact .slnil
    | cons target rest ih =>
      obtain ⟨label, w⟩ := target
      cases label with
      | deref size offset => exact ih.cons_cons w
      | _ => exact ih.cons w
  rw [reachedBy]
  split
  · exact kept _
  · exact kept _
  · exact List.nil_sublist _

private theorem accesses_increasing :
    (s.accesses v).Pairwise fun a b => compare a.2.2 b.2.2 = .lt := by
  have below {access : Label × TypeVar} {x : Int × Nat × TypeVar}
      (inside : x ∈ s.reachedBy access) : ∃ label, x.2.2 = access.2.extend label := by
    have child := (reachedBy_sublist access).subset (List.mem_map_of_mem inside)
    obtain ⟨⟨label, w⟩, listed, same⟩ := List.mem_map.mp child
    exact ⟨label, same.symm.trans (mem_children.mp listed).2⟩
  change ((s.children v).flatMap s.reachedBy).Pairwise _
  rw [List.pairwise_flatMap]
  constructor
  · intro access _
    rw [← List.pairwise_map (f := fun bytes : Int × Nat × TypeVar => bytes.2.2)
      (R := fun a b => compare a b = .lt)]
    exact (List.pairwise_map.mpr children_increasing).sublist (reachedBy_sublist access)
  -- Two accesses differ in a label before the last, which decides for all that they reach.
  · apply children_increasing.imp_of_mem
    intro a b first second less x inside y inside'
    obtain ⟨_, same⟩ := mem_children.mp first
    obtain ⟨_, same'⟩ := mem_children.mp second
    obtain ⟨i, left⟩ := below inside
    obtain ⟨j, right⟩ := below inside'
    rw [same, same', TypeVar.compare_extend] at less
    rw [left, right, same, same']
    simp only [TypeVar.extend, List.append_assoc, List.singleton_append]
    rw [TypeVar.compare_below, less]
    rfl

theorem mem_accesses_iff {entry : Int × Nat × TypeVar} :
    entry ∈ s.accesses v ↔ ∃ d, s.Dereferences v d ∧ d.entry v = entry := by
  obtain ⟨offset, size, w⟩ := entry
  rw [mem_accesses]
  constructor
  · rintro ⟨access, n, o, kind, through, reached, rfl, rfl, rfl⟩
    exact ⟨⟨access, n, o⟩, ⟨kind, mem_nodes_iff.mp through, mem_nodes_iff.mp reached⟩, rfl⟩
  · rintro ⟨d, found, same⟩
    obtain ⟨rfl, rfl, rfl⟩ : d.offset.toInt = offset ∧ d.size.toNat = size ∧ d.reach v = w := by
      simpa [Deref.entry] using same
    exact ⟨d.access, d.size, d.offset, found.access, mem_nodes_iff.mpr found.through,
      mem_nodes_iff.mpr found.reached, rfl, rfl, rfl⟩

theorem derefs_get?_least {offset : Int} {found : Nat × TypeVar}
    (first : (s.derefs v).get? offset = some found) : (offset, found) ∈ s.accesses v ∧
      ∀ other, (offset, other) ∈ s.accesses v → compare found.2 other.2 ≠ .gt := by
  rw [derefs_get?, Option.map_eq_some_iff] at first
  obtain ⟨⟨o, _⟩, head, rfl⟩ := first
  obtain ⟨here, before, after, split, skipped⟩ := List.find?_eq_some_iff_append.mp head
  obtain rfl : o = offset := by simpa using here
  have sorted := accesses_increasing (s := s) (v := v)
  rw [split] at sorted ⊢
  refine ⟨by simp, ?_⟩
  intro other inside
  rcases List.mem_append.mp inside with early | late
  · simpa using skipped _ early
  · rcases List.mem_cons.mp late with same | later
    · simp [(Prod.mk.inj same).2]
    · rw [(List.pairwise_cons.mp (List.pairwise_append.mp sorted).2.1).1 _ later]
      simp

private theorem decides_of_derefs {offset : Int} {found : Nat × TypeVar}
    (first : (s.derefs v).get? offset = some found) :
    ∃ d, s.Decides v d ∧ d.entry v = (offset, found) := by
  obtain ⟨listed, earliest⟩ := derefs_get?_least first
  obtain ⟨d, there, same⟩ := mem_accesses_iff.mp listed
  obtain ⟨rfl, rfl⟩ := Prod.mk.inj same
  -- At one offset, the order of variables is that of the accesses and then that of the sizes.
  have order (e : Deref) (other : s.Dereferences v e) (same : e.offset = d.offset) :
      (compare d.access e.access).then
        (compare (Label.deref d.size d.offset) (.deref e.size d.offset)) ≠ .gt := by
    have late := earliest (e.entry v).2
      (mem_accesses_iff.mpr ⟨e, other, by rw [← same]; rfl⟩)
    rwa [Deref.entry, Deref.compare_reach, same] at late
  refine ⟨d, ⟨there, ?_, ?_⟩, rfl⟩
  · intro stored e other same
    rcases other.access with loaded | stored'
    · have late := order e other same
      rw [stored, loaded] at late
      exact absurd rfl late
    · exact stored'
  · intro e other same access
    have late := order e other same
    rw [access, Std.compare_self, Label.compare_deref] at late
    have less : (d.size.toNat : Int) ≤ e.size.toNat :=
      Std.isLE_compare.mp (Ordering.isLE_iff_ne_gt.mpr late)
    exact UInt64.le_iff_toNat_le.mpr (Int.ofNat_le.mp less)

private theorem Decides.eq_of_entry (first : s.Decides v d) (second : s.Decides v e)
    (same : (d.entry v).1 = (e.entry v).1) : d = e :=
  first.unique second (Int64.toInt_inj.mp same)

private theorem Dereferences.exists_derefs (there : s.Dereferences v d) :
    ∃ found, (s.derefs v).get? d.offset.toInt = some found := by
  cases first : (s.derefs v).get? d.offset.toInt with
  | some found => exact ⟨found, rfl⟩
  | none =>
    rw [derefs_get?, Option.map_eq_none_iff, List.find?_eq_none] at first
    simpa [Deref.entry] using first _ (mem_accesses_iff.mpr ⟨d, there, rfl⟩)

theorem Dereferences.exists_decides (there : s.Dereferences v d) :
    ∃ e, s.Decides v e ∧ e.offset = d.offset := by
  obtain ⟨_, first⟩ := there.exists_derefs
  obtain ⟨e, decides, same⟩ := decides_of_derefs first
  exact ⟨e, decides, Int64.toInt_inj.mp (Prod.mk.inj same).1⟩

theorem mem_derefs {entry : Int × Nat × TypeVar} :
    entry ∈ (s.derefs v).entries ↔ ∃ d, s.Decides v d ∧ d.entry v = entry := by
  constructor
  · intro listed
    exact decides_of_derefs ((OrdMap.get?_eq_some_iff _ _ _).mpr listed)
  · rintro ⟨d, decides, rfl⟩
    obtain ⟨found, first⟩ := decides.found.exists_derefs
    obtain ⟨e, other, same⟩ := decides_of_derefs first
    obtain rfl := other.eq_of_entry decides (Prod.mk.inj same).1
    rw [same]
    exact (OrdMap.get?_eq_some_iff _ _ _).mp first

/-- The dereferences that count at offsets that are not negative, in the order of the offsets. -/
theorem exists_decisions (s : Sketch) (v : TypeVar) : ∃ ds : List Deref,
    ds.Pairwise (fun a b => a.offset < b.offset) ∧
    (∀ d, d ∈ ds ↔ s.Decides v d ∧ 0 ≤ d.offset) ∧
    ds.map (fun d => d.entry v) = (s.derefs v).entries.filter fun entry => 0 ≤ entry.1 := by
  obtain ⟨ds, good, listed⟩ : ∃ ds : List Deref, (∀ d ∈ ds, s.Decides v d ∧ 0 ≤ d.offset) ∧
      ds.map (fun d => d.entry v) = (s.derefs v).entries.filter fun entry => 0 ≤ entry.1 := by
    apply exists_map_eq
    intro entry inside
    obtain ⟨inside, positive⟩ := List.mem_filter.mp inside
    obtain ⟨d, decides, rfl⟩ := mem_derefs.mp inside
    exact ⟨d, ⟨decides, Int64.le_iff_toInt_le.mpr (of_decide_eq_true positive)⟩, rfl⟩
  refine ⟨ds, ?_, fun d => ⟨good d, ?_⟩, listed⟩
  · have sorted := (s.derefs v).increasing.filter fun entry => decide (0 ≤ entry.1)
    rw [← listed, List.pairwise_map] at sorted
    exact sorted.imp fun less => Int64.lt_iff_toInt_lt.mpr (Std.compare_eq_lt.mp less)
  · rintro ⟨decides, positive⟩
    have inside : d.entry v ∈ ds.map fun d => d.entry v := by
      rw [listed, List.mem_filter]
      exact ⟨mem_derefs.mpr ⟨d, decides, rfl⟩, decide_eq_true (Int64.le_iff_toInt_le.mp positive)⟩
    obtain ⟨e, member, same⟩ := List.mem_map.mp inside
    obtain rfl := (good e member).1.eq_of_entry decides (congrArg Prod.fst same)
    exact member

end Sketch
end TypeRecovery
