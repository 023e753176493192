import Mathlib.Logic.Relation
import TypeRecovery.Lattice.Ground

/-! The fixed atoms form a lattice under the table of their supertypes. The bounds of two atoms
are given by name, and the table is searched only to see that they are the tightest ones. -/
namespace TypeRecovery
open Relation

namespace Ground

theorem above_self (g : Ground) : g ∈ g.above := by
  cases g with
  | bottom => exact mem_all bottom
  | _ => exact List.mem_cons_self

theorem above_top (g : Ground) : top ∈ g.above := by
  cases g <;> simp [above, mem_all]

/-- The edge from a subtype to a supertype, or from the bottom to an atom without a subtype. -/
def Under (g h : Ground) : Prop := (g, h) ∈ links

theorem eq_bottom_or_on_edge (g : Ground) :
    g = bottom ∨ ∃ edge ∈ edges, edge.1 = g ∨ edge.2 = g := by
  have table : ∀ g ∈ top :: inner, ∃ edge ∈ edges, edge.1 = g ∨ edge.2 = g := by decide
  exact (List.mem_cons.mp (mem_all g)).imp_right (table g)

private theorem mem_above_of_under {g h k : Ground} (link : g.Under h) (up : k ∈ h.above) :
    k ∈ g.above := by
  rcases List.mem_append.mp link with edge | leaf
  · have table : ∀ edge ∈ edges, ∀ k ∈ edge.2.above, k ∈ edge.1.above := by decide
    exact table (g, h) edge k up
  · obtain ⟨_, _, same⟩ := List.mem_map.mp leaf
    obtain ⟨rfl, rfl⟩ := Prod.mk.inj same
    exact mem_all k

private theorem length_above_lt_all {g : Ground} (apart : g ≠ bottom) :
    g.above.length < all.length := by
  have small : g.above.length ≤ 5 := by
    cases g with
    | bottom => contradiction
    | _ => simp [above]
  exact Nat.lt_of_le_of_lt small (by decide)

private theorem exists_under_of_mem_above {g h : Ground} (up : h ∈ g.above) (apart : h ≠ g) :
    ∃ k, g.Under k ∧ h ∈ k.above ∧ k.above.length < g.above.length := by
  rcases List.mem_cons.mp (mem_all g) with rfl | tail
  · have table : ∀ h ∈ top :: inner, ∃ leaf ∈ inner, h ∈ leaf.above ∧
        ∀ edge ∈ edges, edge.2 ≠ leaf := by decide
    obtain ⟨leaf, listed, found, least⟩ := table h ((List.mem_cons.mp up).resolve_left apart)
    have proper : leaf ≠ bottom := fun same => absurd (same ▸ listed) (by decide)
    have link : bottom.Under leaf := by
      apply List.mem_append_right
      apply List.mem_map_of_mem
      simpa [leaves, mem_all, proper] using least
    exact ⟨leaf, link, found, length_above_lt_all proper⟩
  · have table : ∀ g ∈ top :: inner, ∀ h ∈ g.above, h ≠ g → ∃ edge ∈ edges, edge.1 = g ∧
        h ∈ edge.2.above ∧ edge.2.above.length < g.above.length := by decide
    obtain ⟨edge, listed, rfl, found⟩ := table g tail h up apart
    exact ⟨edge.2, List.mem_append_left _ listed, found⟩

/-- The table lists what the links lead to. -/
theorem mem_above_iff {g h : Ground} : h ∈ g.above ↔ ReflTransGen Under g h := by
  constructor
  · intro up
    -- Supertypes have fewer supertypes.
    induction size : g.above.length using Nat.strongRecOn generalizing g with
    | ind size fewer =>
      by_cases here : h = g
      · rw [here]
      · obtain ⟨k, link, rest, smaller⟩ := exists_under_of_mem_above up here
        exact .head link (fewer _ (size ▸ smaller) rest rfl)
  · intro chain
    induction chain using ReflTransGen.head_induction_on with
    | refl => exact above_self h
    | head link _ ih => exact mem_above_of_under link ih

theorem above_trans {g h k : Ground} (first : h ∈ g.above) (second : k ∈ h.above) :
    k ∈ g.above :=
  mem_above_iff.mpr ((mem_above_iff.mp first).trans (mem_above_iff.mp second))

private theorem length_above_lt {g h : Ground} (up : h ∈ g.above) (apart : h ≠ g) :
    h.above.length < g.above.length := by
  induction size : g.above.length using Nat.strongRecOn generalizing g with
  | ind size fewer =>
    obtain ⟨k, _, rest, smaller⟩ := exists_under_of_mem_above up apart
    rw [size] at smaller
    by_cases here : h = k
    · rwa [here]
    · exact Nat.lt_trans (fewer _ smaller rest here rfl) smaller

theorem above_antisymm {g h : Ground} (up : h ∈ g.above) (down : g ∈ h.above) : g = h := by
  by_cases same : g = h
  · exact same
  · exact absurd (length_above_lt up (Ne.symm same)) (Nat.lt_asymm (length_above_lt down same))

theorem mem_below {g h : Ground} : h ∈ g.below ↔ g ∈ h.above := by
  simp [below, mem_all]

/-- The greatest atom below two atoms. An integer of one width and one signedness is the only
atom with two families above it. -/
def meet (g h : Ground) : Ground :=
  if h ∈ g.above then g
  else if g ∈ h.above then h
  else
    match g, h with
    | num w, int | int, num w => signed w
    | num w, uint | uint, num w => unsigned w
    | _, _ => bottom

/-- The least atom above two atoms. Supertypes are listed from the nearest to the farthest. -/
def join (g h : Ground) : Ground :=
  if h ∈ g.above then h
  else if g ∈ h.above then g
  else (g.above.find? (· ∈ h.above)).getD top

theorem meet_below (g h : Ground) : g ∈ (meet g h).above ∧ h ∈ (meet g h).above := by
  unfold meet
  split
  next larger => exact ⟨above_self g, larger⟩
  next =>
    split
    next larger => exact ⟨larger, above_self h⟩
    next => split <;> simp [above, mem_all]

theorem meet_greatest {g h x : Ground} (left : g ∈ x.above) (right : h ∈ x.above) :
    meet g h ∈ x.above := by
  have table : ∀ x ∈ inner, ∀ g ∈ x.above, ∀ h ∈ x.above, meet g h ∈ x.above := by
    decide
  rcases List.mem_cons.mp (mem_all x) with rfl | tail
  · exact mem_all _
  rcases List.mem_cons.mp tail with rfl | inside
  · obtain rfl : g = top := by simpa [above] using left
    obtain rfl : h = top := by simpa [above] using right
    exact above_self top
  · exact table x inside g left h right

theorem join_above (g h : Ground) : join g h ∈ g.above ∧ join g h ∈ h.above := by
  unfold join
  split
  next larger => exact ⟨larger, above_self h⟩
  next =>
    split
    next larger => exact ⟨above_self g, larger⟩
    next =>
      cases found : g.above.find? (· ∈ h.above) with
      | none => exact ⟨above_top g, above_top h⟩
      | some k =>
        exact ⟨List.mem_of_find?_eq_some found, by simpa using List.find?_some found⟩

/-- Of two supertypes, the one listed first lies below the other, unless both lie above nothing but
what the atom lies above. -/
private theorem above_pairwise {g : Ground} (inside : g ∈ inner) :
    g.above.Pairwise fun a b =>
      b ∈ a.above ∨ ∀ h ∈ inner, a ∈ h.above → b ∈ h.above → g ∈ h.above := by
  have table : ∀ g ∈ inner, g.above.Pairwise fun a b =>
      b ∈ a.above ∨ ∀ h ∈ inner, a ∈ h.above → b ∈ h.above → g ∈ h.above := by decide
  exact table g inside

theorem join_least {g h x : Ground} (left : x ∈ g.above) (right : x ∈ h.above) :
    x ∈ (join g h).above := by
  by_cases larger : h ∈ g.above
  · rwa [join, if_pos larger]
  by_cases smaller : g ∈ h.above
  · rwa [join, if_neg larger, if_pos smaller]
  -- An atom that is comparable with neither is no sentinel.
  have inside : ∀ k ∈ all, k = bottom ∨ k = top ∨ k ∈ inner := by
    simp [all]
  rcases inside g (mem_all g) with rfl | rfl | first
  · exact absurd (mem_all h) larger
  · exact absurd (above_top h) smaller
  rcases inside h (mem_all h) with rfl | rfl | second
  · exact absurd (mem_all g) smaller
  · exact absurd (above_top g) larger
  rw [join, if_neg larger, if_neg smaller]
  cases found : g.above.find? (· ∈ h.above) with
  | none => exact absurd right (by simpa using List.find?_eq_none.mp found x left)
  | some k =>
    obtain ⟨common, before, after, split, apart⟩ := List.find?_eq_some_iff_append.mp found
    have ordered := above_pairwise first
    rw [split] at left ordered
    rcases List.mem_append.mp left with early | late
    · exact absurd right (by simpa using apart x early)
    · rcases List.mem_cons.mp late with rfl | later
      · exact above_self x
      · have pair := (List.pairwise_cons.mp (List.pairwise_append.mp ordered).2.1).1 x later
        refine pair.resolve_right fun both => smaller ?_
        exact both h second (by simpa using common) right

theorem ofName?_name (g : Ground) : ofName? g.name = some g := by
  have table : ∀ g ∈ all, ofName? g.name = some g := by decide
  exact table g (mem_all g)

theorem ground?_toVar (g : Ground) : g.toVar.ground? = some g := ofName?_name g

theorem toVar_injective {g h : Ground} (same : g.toVar = h.toVar) : g = h := by
  have names : g.toVar.ground? = h.toVar.ground? := congrArg TypeVar.ground? same
  rw [ground?_toVar, ground?_toVar] at names
  exact Option.some.inj names

end Ground

theorem TypeVar.eq_toVar_of_ground? {v : TypeVar} {g : Ground} (named : v.ground? = some g) :
    v = g.toVar := by
  obtain ⟨base, path⟩ := v
  unfold TypeVar.ground? at named
  split at named
  next plain =>
    have empty : path = [] := by simpa [TypeVar.isBase] using plain
    have same : g.name = base := by
      have found := List.find?_some named
      simpa using found
    rw [Ground.toVar, same, empty]
  next => contradiction

end TypeRecovery
