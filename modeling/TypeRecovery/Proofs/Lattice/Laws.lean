import Mathlib.Data.List.Nodup
import Mathlib.Order.Bounds.Basic
import Mathlib.Order.Lattice
import TypeRecovery.Lattice.Basic
import TypeRecovery.Proofs.Lattice.Ground

/-! The lattice laws. Whatever is sealed, subtyping is a partial order on all variables, those
outside the lattice included, and every two of them have a greatest lower and a least upper
bound. These are what `meet` and `join` compute, so the search for a single extreme candidate
never comes out empty or ambiguous. -/
namespace TypeRecovery

private theorem isLUB_foldl_sup {α : Type} [SemilatticeSup α] (start : α) (l : List α) :
    IsLUB {a | a = start ∨ a ∈ l} (l.foldl (· ⊔ ·) start) := by
  induction l generalizing start with
  | nil => simp
  | cons b rest ih =>
    obtain ⟨above, least⟩ := ih (start ⊔ b)
    have joined : start ⊔ b ≤ rest.foldl (· ⊔ ·) (start ⊔ b) := above (.inl rfl)
    constructor
    · rintro a (rfl | inside)
      · exact le_sup_left.trans joined
      · rcases List.mem_cons.mp inside with rfl | later
        · exact le_sup_right.trans joined
        · exact above (.inr later)
    · intro x bound
      apply least
      rintro a (rfl | inside)
      · exact sup_le (bound (.inl rfl)) (bound (.inr List.mem_cons_self))
      · exact bound (.inr (List.mem_cons_of_mem b inside))

namespace AtomLattice

variable (l : AtomLattice)

theorem isSubtype_iff {a b : TypeVar} :
    l.isSubtype a b ↔ a = b ∨ a = bottom ∨ b = top ∨
      ∃ g h : Ground, a = g.toVar ∧ b = h.toVar ∧ h ∈ g.above := by
  have unfolded : l.isSubtype a b ↔ a = b ∨ a = bottom ∨ b = top ∨ b ∈ l.above a := by
    simp [isSubtype, or_assoc]
  rw [unfolded, above]
  cases named : a.ground? with
  | none =>
    have notFixed (g : Ground) : a ≠ g.toVar := by
      intro same
      subst same
      rw [Ground.ground?_toVar] at named
      contradiction
    simp only [List.mem_cons, List.not_mem_nil, or_false, notFixed, false_and, exists_false]
    grind
  | some g =>
    obtain rfl := TypeVar.eq_toVar_of_ground? named
    simp only [List.mem_append, List.mem_map]
    constructor
    · intro given
      rcases given with same | low | high | ⟨h, inside, rfl⟩ | sealedAtom
      · exact .inl same
      · exact .inr (.inl low)
      · exact .inr (.inr (.inl high))
      · exact .inr (.inr (.inr ⟨g, h, rfl, rfl, inside⟩))
      · split at sealedAtom
        next low => exact .inr (.inl (low ▸ rfl))
        next => contradiction
    · intro given
      rcases given with same | low | high | ⟨g', h, same, rfl, inside⟩
      · exact .inl same
      · exact .inr (.inl low)
      · exact .inr (.inr (.inl high))
      · exact .inr (.inr (.inr (.inl ⟨h, Ground.toVar_injective same ▸ inside, rfl⟩)))

theorem isSubtype_refl (a : TypeVar) : l.isSubtype a a :=
  (isSubtype_iff l).mpr (.inl rfl)

theorem bottom_isSubtype (a : TypeVar) : l.isSubtype bottom a :=
  (isSubtype_iff l).mpr (.inr (.inl rfl))

theorem isSubtype_top (a : TypeVar) : l.isSubtype a top :=
  (isSubtype_iff l).mpr (.inr (.inr (.inl rfl)))

private theorem bottom_ne_top : bottom ≠ top := fun same =>
  absurd (Ground.toVar_injective same) (by decide)

private theorem eq_bottom_of_isSubtype {a : TypeVar} (low : l.isSubtype a bottom) : a = bottom := by
  rcases (isSubtype_iff l).mp low with same | same | same | ⟨g, h, rfl, same, up⟩
  · exact same
  · exact same
  · exact absurd same bottom_ne_top
  · obtain rfl := Ground.toVar_injective same
    exact congrArg Ground.toVar (Ground.above_antisymm up (Ground.mem_all g))

private theorem eq_top_of_isSubtype {a : TypeVar} (high : l.isSubtype top a) : a = top := by
  rcases (isSubtype_iff l).mp high with same | same | same | ⟨g, h, same, rfl, up⟩
  · exact same.symm
  · exact absurd same.symm bottom_ne_top
  · exact same
  · obtain rfl := Ground.toVar_injective same
    rw [List.mem_singleton.mp up]
    rfl

theorem isSubtype_trans {a b c : TypeVar} (first : l.isSubtype a b) (second : l.isSubtype b c) :
    l.isSubtype a c := by
  rcases (isSubtype_iff l).mp first with rfl | rfl | rfl | ⟨g, h, rfl, rfl, up⟩
  · exact second
  · exact bottom_isSubtype l c
  · rw [eq_top_of_isSubtype l second]
    exact isSubtype_top l a
  · rcases (isSubtype_iff l).mp second with rfl | low | rfl | ⟨h', k, same, rfl, further⟩
    · exact first
    · rw [low] at first
      rw [eq_bottom_of_isSubtype l first]
      exact bottom_isSubtype l c
    · exact isSubtype_top l _
    · obtain rfl := Ground.toVar_injective same
      exact (isSubtype_iff l).mpr (.inr (.inr (.inr ⟨g, k, rfl, rfl, Ground.above_trans up further⟩)))

theorem isSubtype_antisymm {a b : TypeVar} (up : l.isSubtype a b) (down : l.isSubtype b a) :
    a = b := by
  rcases (isSubtype_iff l).mp up with same | rfl | rfl | ⟨g, h, rfl, rfl, larger⟩
  · exact same
  · exact (eq_bottom_of_isSubtype l down).symm
  · exact eq_top_of_isSubtype l down
  · rcases (isSubtype_iff l).mp down with same | same | same | ⟨h', g', same, same', smaller⟩
    · exact same.symm
    · rw [same] at up ⊢
      exact eq_bottom_of_isSubtype l up
    · rw [same] at up ⊢
      exact (eq_top_of_isSubtype l up).symm
    · obtain rfl := Ground.toVar_injective same
      obtain rfl := Ground.toVar_injective same'
      rw [Ground.above_antisymm larger smaller]

/-- The list of supertypes is complete for all but the least element, which has every variable
above it. -/
theorem mem_above {a b : TypeVar} (notLow : a ≠ bottom) : b ∈ l.above a ↔ l.isSubtype a b := by
  constructor
  · intro listed
    simp [isSubtype, listed]
  · intro up
    rcases (isSubtype_iff l).mp up with rfl | low | rfl | ⟨g, h, rfl, rfl, larger⟩
    · cases named : a.ground? with
      | none => simp [above, named]
      | some g =>
        rw [above, named, TypeVar.eq_toVar_of_ground? named]
        exact List.mem_append_left _ (List.mem_map_of_mem (Ground.above_self g))
    · exact absurd low notLow
    · cases named : a.ground? with
      | none => simp [above, named]
      | some g =>
        rw [above, named]
        exact List.mem_append_left _ (List.mem_map_of_mem (Ground.above_top g))
    · rw [above, Ground.ground?_toVar]
      exact List.mem_append_left _ (List.mem_map_of_mem larger)

theorem mem_below {a b : TypeVar} (notHigh : a ≠ top) : b ∈ l.below a ↔ l.isSubtype b a := by
  rw [isSubtype_iff, below]
  cases named : a.ground? with
  | none =>
    have notFixed (g : Ground) : a ≠ g.toVar := by
      intro same
      subst same
      rw [Ground.ground?_toVar] at named
      contradiction
    simp [notFixed, notHigh]
  | some g =>
    obtain rfl := TypeVar.eq_toVar_of_ground? named
    have inner : g ≠ .top := fun high => notHigh (high ▸ rfl)
    simp only [if_neg inner, List.append_nil, List.mem_map, Ground.mem_below]
    constructor
    · intro given
      obtain ⟨h, up, rfl⟩ := given
      exact .inr (.inr (.inr ⟨h, g, rfl, rfl, up⟩))
    · intro given
      rcases given with rfl | rfl | high | ⟨h, g', rfl, same, up⟩
      · exact ⟨g, Ground.above_self g, rfl⟩
      · exact ⟨.bottom, Ground.mem_all g, rfl⟩
      · exact absurd high notHigh
      · exact ⟨h, Ground.toVar_injective same ▸ up, rfl⟩

theorem nodup_below {a : TypeVar} (notHigh : a ≠ top) : (l.below a).Nodup := by
  rw [below]
  cases named : a.ground? with
  | none =>
    have notLow : a ≠ bottom := by
      intro same
      subst same
      rw [bottom, Ground.ground?_toVar] at named
      contradiction
    simpa using notLow
  | some g =>
    have inner : g ≠ .top := by
      intro same
      subst same
      exact notHigh (TypeVar.eq_toVar_of_ground? named)
    simp only [if_neg inner, List.append_nil]
    have distinct : Ground.all.Nodup := by decide
    exact (distinct.filter _).map fun _ _ same => Ground.toVar_injective same

theorem nodup_above {a : TypeVar} (notLow : a ≠ bottom) : (l.above a).Nodup := by
  rw [above]
  cases named : a.ground? with
  | none =>
    have notHigh : a ≠ top := by
      intro same
      subst same
      rw [top, Ground.ground?_toVar] at named
      contradiction
    simpa using notHigh
  | some g =>
    have inner : g ≠ .bottom := by
      intro same
      subst same
      exact notLow (TypeVar.eq_toVar_of_ground? named)
    simp only [if_neg inner, List.append_nil]
    have distinct : ∀ g ∈ Ground.all, g.above.Nodup := by decide
    exact (distinct g (Ground.mem_all g)).map fun _ _ same => Ground.toVar_injective same

private theorem filter_extreme (beyond : TypeVar → List TypeVar) (candidates : List TypeVar)
    (m : TypeVar)
    (distinct : candidates.Nodup) (inside : m ∈ candidates)
    (reached : ∀ c ∈ candidates, m ∈ beyond c)
    (last : ∀ c ∈ candidates, c ∈ beyond m → c = m) :
    candidates.filter (fun c => candidates.all fun d => d == c || !(beyond c).contains d) = [m] := by
  have only : ∀ c ∈ candidates,
      (candidates.all fun d => d == c || !(beyond c).contains d) = (c == m) := by
    intro c member
    by_cases same : c = m
    · subst same
      simp only [beq_self_eq_true, List.all_eq_true, Bool.or_eq_true, beq_iff_eq,
        Bool.not_eq_true', List.contains_eq_mem, decide_eq_false_iff_not]
      intro d other
      by_cases further : d ∈ beyond c
      · exact .inl (last d other further)
      · exact .inr further
    · rw [beq_false_of_ne same, List.all_eq_false]
      exact ⟨m, inside, by simp [Ne.symm same, reached c member]⟩
  rw [List.filter_congr only, List.filter_beq, distinct.count, if_pos inside]
  rfl

def IsMeet (m a b : TypeVar) : Prop :=
  l.isSubtype m a ∧ l.isSubtype m b ∧ ∀ x, l.isSubtype x a → l.isSubtype x b → l.isSubtype x m

def IsJoin (j a b : TypeVar) : Prop :=
  l.isSubtype a j ∧ l.isSubtype b j ∧ ∀ x, l.isSubtype a x → l.isSubtype b x → l.isSubtype j x

private theorem isSubtype_of_mem_above {g h : Ground} (up : h ∈ g.above) :
    l.isSubtype g.toVar h.toVar :=
  (isSubtype_iff l).mpr (.inr (.inr (.inr ⟨g, h, rfl, rfl, up⟩)))

private theorem exists_isMeet (a b : TypeVar) : ∃ m, l.IsMeet m a b := by
  by_cases up : l.isSubtype a b
  · exact ⟨a, isSubtype_refl l a, up, fun _ left _ => left⟩
  by_cases down : l.isSubtype b a
  · exact ⟨b, down, isSubtype_refl l b, fun _ _ right => right⟩
  -- Incomparable variables have the least element and perhaps fixed atoms below both.
  have common (x : TypeVar) (left : l.isSubtype x a) (right : l.isSubtype x b) : x = bottom ∨
      ∃ k g h : Ground, x = k.toVar ∧ a = g.toVar ∧ b = h.toVar ∧ g ∈ k.above ∧ h ∈ k.above := by
    rcases (isSubtype_iff l).mp left with rfl | low | rfl | ⟨k, g, rfl, rfl, first⟩
    · exact absurd right up
    · exact .inl low
    · exact absurd (isSubtype_top l b) down
    rcases (isSubtype_iff l).mp right with rfl | low | rfl | ⟨k', h, same, rfl, second⟩
    · exact absurd left down
    · exact .inl low
    · exact absurd (isSubtype_top l g.toVar) up
    · exact .inr ⟨k, g, h, rfl, rfl, rfl, first, Ground.toVar_injective same ▸ second⟩
  by_cases fixed : ∃ g h : Ground, a = g.toVar ∧ b = h.toVar
  · obtain ⟨g, h, rfl, rfl⟩ := fixed
    refine ⟨(Ground.meet g h).toVar, isSubtype_of_mem_above l (Ground.meet_below g h).1,
      isSubtype_of_mem_above l (Ground.meet_below g h).2, ?_⟩
    intro x left right
    rcases common x left right with rfl | ⟨k, g', h', rfl, sameLeft, sameRight, first, second⟩
    · exact bottom_isSubtype l _
    · obtain rfl := Ground.toVar_injective sameLeft
      obtain rfl := Ground.toVar_injective sameRight
      exact isSubtype_of_mem_above l (Ground.meet_greatest first second)
  · refine ⟨bottom, bottom_isSubtype l a, bottom_isSubtype l b, ?_⟩
    intro x left right
    rcases common x left right with rfl | ⟨_, g, h, _, first, second, _⟩
    · exact isSubtype_refl l bottom
    · exact absurd ⟨g, h, first, second⟩ fixed

private theorem exists_isJoin (a b : TypeVar) : ∃ j, l.IsJoin j a b := by
  by_cases up : l.isSubtype a b
  · exact ⟨b, up, isSubtype_refl l b, fun _ _ right => right⟩
  by_cases down : l.isSubtype b a
  · exact ⟨a, isSubtype_refl l a, down, fun _ left _ => left⟩
  have common (x : TypeVar) (left : l.isSubtype a x) (right : l.isSubtype b x) : x = top ∨
      ∃ k g h : Ground, x = k.toVar ∧ a = g.toVar ∧ b = h.toVar ∧ k ∈ g.above ∧ k ∈ h.above := by
    rcases (isSubtype_iff l).mp left with rfl | rfl | high | ⟨g, k, rfl, rfl, first⟩
    · exact absurd right down
    · exact absurd (bottom_isSubtype l b) up
    · exact .inl high
    rcases (isSubtype_iff l).mp right with rfl | rfl | high | ⟨h, k', rfl, same, second⟩
    · exact absurd left up
    · exact absurd (bottom_isSubtype l g.toVar) down
    · exact .inl high
    · exact .inr ⟨k, g, h, rfl, rfl, rfl, first, Ground.toVar_injective same ▸ second⟩
  by_cases fixed : ∃ g h : Ground, a = g.toVar ∧ b = h.toVar
  · obtain ⟨g, h, rfl, rfl⟩ := fixed
    refine ⟨(Ground.join g h).toVar, isSubtype_of_mem_above l (Ground.join_above g h).1,
      isSubtype_of_mem_above l (Ground.join_above g h).2, ?_⟩
    intro x left right
    rcases common x left right with rfl | ⟨k, g', h', rfl, sameLeft, sameRight, first, second⟩
    · exact isSubtype_top l _
    · obtain rfl := Ground.toVar_injective sameLeft
      obtain rfl := Ground.toVar_injective sameRight
      exact isSubtype_of_mem_above l (Ground.join_least first second)
  · refine ⟨top, isSubtype_top l a, isSubtype_top l b, ?_⟩
    intro x left right
    rcases common x left right with rfl | ⟨_, g, h, _, first, second, _⟩
    · exact isSubtype_refl l top
    · exact absurd ⟨g, h, first, second⟩ fixed

/-- The common subtypes of two variables have a single greatest one. It is a fixed atom, so that
it is also listed above the least element. -/
theorem maximal?_common {m a b : TypeVar} (distinct : a ≠ b) (notHighLeft : a ≠ top)
    (notHighRight : b ≠ top) (bound : l.IsMeet m a b) :
    l.maximal? ((l.below a).filter fun v => (l.below b).contains v) = some m := by
  have member (x : TypeVar) : x ∈ (l.below a).filter (fun v => (l.below b).contains v) ↔
      l.isSubtype x a ∧ l.isSubtype x b := by
    simp [mem_below l notHighLeft, mem_below l notHighRight]
  have reached (c : TypeVar) (inside : l.isSubtype c a ∧ l.isSubtype c b) : m ∈ l.above c := by
    by_cases low : c = bottom
    · have fixed : m ∈ Ground.all.map Ground.toVar := by
        rcases (isSubtype_iff l).mp bound.1 with rfl | rfl | high | ⟨g, _, rfl, _⟩
        · rcases (isSubtype_iff l).mp bound.2.1 with same | rfl | high | ⟨g, _, rfl, _⟩
          · exact absurd same distinct
          · exact List.mem_map_of_mem (Ground.mem_all _)
          · exact absurd high notHighRight
          · exact List.mem_map_of_mem (Ground.mem_all _)
        · exact List.mem_map_of_mem (Ground.mem_all _)
        · exact absurd high notHighLeft
        · exact List.mem_map_of_mem (Ground.mem_all _)
      rw [low, above, bottom, Ground.ground?_toVar]
      exact List.mem_append_left _ fixed
    · exact (mem_above l low).mpr (bound.2.2 c inside.1 inside.2)
  have last (c : TypeVar) (inside : l.isSubtype c a ∧ l.isSubtype c b) (further : c ∈ l.above m) :
      c = m := by
    have up : l.isSubtype m c := by simp [isSubtype, further]
    exact isSubtype_antisymm l (bound.2.2 c inside.1 inside.2) up
  have single := filter_extreme l.above _ m ((nodup_below l notHighLeft).filter _)
    ((member m).mpr ⟨bound.1, bound.2.1⟩) (fun c inside => reached c ((member c).mp inside))
    (fun c inside => last c ((member c).mp inside))
  simp only [maximal?, single]

private theorem minimal?_common {j a b : TypeVar} (distinct : a ≠ b) (notLowLeft : a ≠ bottom)
    (notLowRight : b ≠ bottom) (bound : l.IsJoin j a b) :
    l.minimal? ((l.above a).filter fun v => (l.above b).contains v) = some j := by
  have member (x : TypeVar) : x ∈ (l.above a).filter (fun v => (l.above b).contains v) ↔
      l.isSubtype a x ∧ l.isSubtype b x := by
    simp [mem_above l notLowLeft, mem_above l notLowRight]
  have reached (c : TypeVar) (inside : l.isSubtype a c ∧ l.isSubtype b c) : j ∈ l.below c := by
    by_cases high : c = top
    · have fixed : ∃ g : Ground, g.toVar = j := by
        rcases (isSubtype_iff l).mp bound.1 with rfl | low | rfl | ⟨_, h, _, rfl, _⟩
        · rcases (isSubtype_iff l).mp bound.2.1 with same | low | rfl | ⟨_, h, _, rfl, _⟩
          · exact absurd same.symm distinct
          · exact absurd low notLowRight
          · exact ⟨.top, rfl⟩
          · exact ⟨h, rfl⟩
        · exact absurd low notLowLeft
        · exact ⟨.top, rfl⟩
        · exact ⟨h, rfl⟩
      obtain ⟨g, rfl⟩ := fixed
      rw [high, below, top, Ground.ground?_toVar]
      exact List.mem_append_left _ (List.mem_map_of_mem (Ground.mem_below.mpr (Ground.above_top g)))
    · exact (mem_below l high).mpr (bound.2.2 c inside.1 inside.2)
  have last (c : TypeVar) (inside : l.isSubtype a c ∧ l.isSubtype b c) (further : c ∈ l.below j) :
      c = j := by
    have down : l.isSubtype c j := by
      by_cases high : j = top
      · rw [high]
        exact isSubtype_top l c
      · exact (mem_below l high).mp further
    exact isSubtype_antisymm l down (bound.2.2 c inside.1 inside.2)
  have single := filter_extreme l.below _ j ((nodup_above l notLowLeft).filter _)
    ((member j).mpr ⟨bound.1, bound.2.1⟩) (fun c inside => reached c ((member c).mp inside))
    (fun c inside => last c ((member c).mp inside))
  simp only [minimal?, single]

theorem isMeet_meet (a b : TypeVar) : l.IsMeet (l.meet a b) a b := by
  unfold meet
  split
  next early =>
    rcases early with rfl | rfl
    · exact ⟨isSubtype_refl l a, isSubtype_refl l a, fun _ left _ => left⟩
    · exact ⟨isSubtype_refl l a, isSubtype_top l a, fun _ left _ => left⟩
  next different =>
    rw [not_or] at different
    split
    next high =>
      subst high
      exact ⟨isSubtype_top l b, isSubtype_refl l b, fun _ _ right => right⟩
    next notHigh =>
      split
      next low =>
        refine ⟨bottom_isSubtype l a, bottom_isSubtype l b, ?_⟩
        intro x left right
        rcases low with rfl | rfl
        · exact left
        · exact right
      next =>
        obtain ⟨m, bound⟩ := exists_isMeet l a b
        rw [maximal?_common l different.1 notHigh different.2 bound]
        exact bound

theorem isJoin_join (a b : TypeVar) : l.IsJoin (l.join a b) a b := by
  unfold join
  split
  next early =>
    rcases early with rfl | rfl
    · exact ⟨isSubtype_refl l a, isSubtype_refl l a, fun _ left _ => left⟩
    · exact ⟨isSubtype_refl l a, bottom_isSubtype l a, fun _ left _ => left⟩
  next different =>
    rw [not_or] at different
    split
    next low =>
      subst low
      exact ⟨bottom_isSubtype l b, isSubtype_refl l b, fun _ _ right => right⟩
    next notLow =>
      split
      next high =>
        refine ⟨isSubtype_top l a, isSubtype_top l b, ?_⟩
        intro x left right
        rcases high with rfl | rfl
        · exact left
        · exact right
      next =>
        obtain ⟨j, bound⟩ := exists_isJoin l a b
        rw [minimal?_common l different.1 notLow different.2 bound]
        exact bound

/-- All variables, ordered by subtyping with respect to what is sealed. -/
def Element (_ : AtomLattice) : Type := TypeVar

instance : Lattice l.Element where
  le a b := l.isSubtype a b
  le_refl := isSubtype_refl l
  le_trans _ _ _ := isSubtype_trans l
  le_antisymm _ _ := isSubtype_antisymm l
  inf := l.meet
  inf_le_left a b := (isMeet_meet l a b).1
  inf_le_right a b := (isMeet_meet l a b).2.1
  le_inf x a b := (isMeet_meet l a b).2.2 x
  sup := l.join
  le_sup_left a b := (isJoin_join l a b).1
  le_sup_right a b := (isJoin_join l a b).2.1
  sup_le a b x := (isJoin_join l a b).2.2 x

theorem isLUB_joinAll {atoms : List TypeVar} {S : Set TypeVar} (same : ∀ a, a ∈ atoms ↔ a ∈ S) :
    IsLUB (α := l.Element) S (l.joinAll atoms) := by
  obtain ⟨above, least⟩ := isLUB_foldl_sup (α := l.Element) bottom atoms
  refine ⟨fun a inside => above (.inr ((same a).mpr inside)), fun x bound => least ?_⟩
  rintro a (rfl | listed)
  · exact bottom_isSubtype l x
  · exact bound ((same a).mp listed)

theorem isGLB_meetAll {atoms : List TypeVar} {S : Set TypeVar} (same : ∀ a, a ∈ atoms ↔ a ∈ S) :
    IsGLB (α := l.Element) S (l.meetAll atoms) := by
  obtain ⟨below, greatest⟩ := isLUB_foldl_sup (α := l.Elementᵒᵈ) top atoms
  refine ⟨fun a inside => below (.inr ((same a).mpr inside)), fun x bound => greatest ?_⟩
  rintro a (rfl | listed)
  · exact isSubtype_top l x
  · exact bound ((same a).mp listed)

theorem eq_bottom_of_isLUB {j : TypeVar} {S : Set TypeVar} (least : IsLUB (α := l.Element) S j)
    (none : ∀ a, a ∉ S) : j = bottom := by
  have lowest : l.isSubtype j bottom := least.2 fun a inside => absurd inside (none a)
  exact eq_bottom_of_isSubtype l lowest

theorem eq_top_of_isGLB {m : TypeVar} {S : Set TypeVar} (greatest : IsGLB (α := l.Element) S m)
    (none : ∀ a, a ∉ S) : m = top := by
  have highest : l.isSubtype top m := greatest.2 fun a inside => absurd inside (none a)
  exact eq_top_of_isSubtype l highest

theorem contains_toVar (g : Ground) : l.contains g.toVar := by
  rw [contains, Ground.ground?_toVar]
  rfl

theorem contains_of_isSubtype {a b : TypeVar} (up : l.isSubtype a b) (notLow : a ≠ bottom)
    (inside : l.contains a) : l.contains b := by
  rcases (isSubtype_iff l).mp up with rfl | low | rfl | ⟨_, h, _, rfl, _⟩
  · exact inside
  · exact absurd low notLow
  · exact contains_toVar l .top
  · exact contains_toVar l h

theorem contains_of_isSupertype {a b : TypeVar} (up : l.isSubtype a b) (notHigh : b ≠ top)
    (inside : l.contains b) : l.contains a := by
  rcases (isSubtype_iff l).mp up with rfl | rfl | high | ⟨g, _, rfl, _⟩
  · exact inside
  · exact contains_toVar l .bottom
  · exact absurd high notHigh
  · exact contains_toVar l g

theorem contains_joinAll {atoms : List TypeVar} (inside : ∀ a ∈ atoms, l.contains a) :
    l.contains (l.joinAll atoms) := by
  refine List.foldlRecOn (motive := fun v => l.contains v = true) atoms l.join ?_ ?_
  · exact contains_toVar l .bottom
  · intro j joined a listed
    by_cases low : j = bottom
    · have same : l.join j a = a :=
        sup_eq_right (α := l.Element).mpr (low ▸ bottom_isSubtype l a)
      rw [same]
      exact inside a listed
    · exact contains_of_isSubtype l (isJoin_join l j a).1 low joined

theorem contains_meetAll {atoms : List TypeVar} (inside : ∀ a ∈ atoms, l.contains a) :
    l.contains (l.meetAll atoms) := by
  refine List.foldlRecOn (motive := fun v => l.contains v = true) atoms l.meet ?_ ?_
  · exact contains_toVar l .top
  · intro m met a listed
    by_cases high : m = top
    · have same : l.meet m a = a :=
        inf_eq_right (α := l.Element).mpr (high ▸ isSubtype_top l a)
      rw [same]
      exact inside a listed
    · exact contains_of_isSupertype l (isMeet_meet l m a).1 high met

/-- What makes subtyping a lattice on all variables, and its bounds easy to find. -/
structure Lawful : Prop where
  refl (a : TypeVar) : l.isSubtype a a
  trans (a b c : TypeVar) : l.isSubtype a b → l.isSubtype b c → l.isSubtype a c
  antisymm (a b : TypeVar) : l.isSubtype a b → l.isSubtype b a → a = b
  least (a : TypeVar) : l.isSubtype bottom a
  greatest (a : TypeVar) : l.isSubtype a top
  meet (a b : TypeVar) : l.IsMeet (l.meet a b) a b
  join (a b : TypeVar) : l.IsJoin (l.join a b) a b
  meet_comm (a b : TypeVar) : l.meet a b = l.meet b a
  join_comm (a b : TypeVar) : l.join a b = l.join b a
  meet_assoc (a b c : TypeVar) : l.meet (l.meet a b) c = l.meet a (l.meet b c)
  join_assoc (a b c : TypeVar) : l.join (l.join a b) c = l.join a (l.join b c)
  meet_idem (a : TypeVar) : l.meet a a = a
  join_idem (a : TypeVar) : l.join a a = a
  meet_absorbs (a b : TypeVar) : l.meet a (l.join a b) = a
  join_absorbs (a b : TypeVar) : l.join a (l.meet a b) = a
  /-- Where the common subtypes are searched, the search finds a single greatest one. -/
  meet_unambiguous (a b : TypeVar) : a ≠ b → a ≠ top → b ≠ top → a ≠ bottom → b ≠ bottom →
    ∃ m, l.maximal? ((l.below a).filter fun v => (l.below b).contains v) = some m
  join_unambiguous (a b : TypeVar) : a ≠ b → a ≠ top → b ≠ top → a ≠ bottom → b ≠ bottom →
    ∃ j, l.minimal? ((l.above a).filter fun v => (l.above b).contains v) = some j

/-- Every lattice is lawful: no choice of sealed atoms, and no variable from outside, disturbs
the order or leaves a bound ambiguous. -/
theorem lawful : l.Lawful where
  refl := isSubtype_refl l
  trans _ _ _ := isSubtype_trans l
  antisymm _ _ := isSubtype_antisymm l
  least := bottom_isSubtype l
  greatest := isSubtype_top l
  meet := isMeet_meet l
  join := isJoin_join l
  meet_comm := @inf_comm l.Element _
  join_comm := @sup_comm l.Element _
  meet_assoc := @inf_assoc l.Element _
  join_assoc := @sup_assoc l.Element _
  meet_idem := @inf_idem l.Element _
  join_idem := @sup_idem l.Element _
  meet_absorbs _ _ := @inf_sup_self l.Element _ _ _
  join_absorbs _ _ := @sup_inf_self l.Element _ _ _
  meet_unambiguous a b distinct highLeft highRight _ _ := by
    obtain ⟨m, bound⟩ := exists_isMeet l a b
    exact ⟨m, maximal?_common l distinct highLeft highRight bound⟩
  join_unambiguous a b distinct _ _ lowLeft lowRight := by
    obtain ⟨j, bound⟩ := exists_isJoin l a b
    exact ⟨j, minimal?_common l distinct lowLeft lowRight bound⟩

example : join {} (Ground.signed .w32).toVar (Ground.unsigned .w32).toVar =
    (Ground.num .w32).toVar := by decide

end AtomLattice
end TypeRecovery
