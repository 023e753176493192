import Mathlib.Data.List.Forall2
import Mathlib.Data.List.Permutation
import Mathlib.Logic.Relation
import TypeRecovery.Binary.Equivalence
import TypeRecovery.Proofs.Ordered

/-! Equivalence of types is bisimilarity. A relation between two tables is a bisimulation if related
types are present, look alike, and refer to related types; two types are equivalent just if some
bisimulation relates them. Comparing takes a pair that it meets again for granted. That is sound
because all pairs met are compared in the end, and a single difference ends the comparison. -/
namespace TypeRecovery
open Relation

def TypeNode.refs : TypeNode → List NodeId
  | pointer pointee => pointee.toList
  | array element _ => [element]
  | struct _ fields => fields.map Prod.snd
  | function ret params => ret.toList ++ params.filterMap id
  | _ => []

/-- The nodes are of one kind and agree in all but their references. Of these, each is absent in
both nodes, or present in both and related. -/
inductive TypeNode.Corresponds (R : NodeId → NodeId → Prop) : TypeNode → TypeNode → Prop where
  | void : Corresponds R .void .void
  | bool : Corresponds R .bool .bool
  | char (size : Nat) : Corresponds R (.char size) (.char size)
  | int (size : Nat) (signed : Bool) : Corresponds R (.int size signed) (.int size signed)
  | float (size : Nat) : Corresponds R (.float size) (.float size)
  | unknown (size : Nat) : Corresponds R (.unknown size) (.unknown size)
  | pointer {a b : Option NodeId} (pointees : Option.Rel R a b) :
    Corresponds R (.pointer a) (.pointer b)
  | array {a b : NodeId} (elements : R a b) (count : Nat) :
    Corresponds R (.array a count) (.array b count)
  | struct {as bs : List (Nat × NodeId)} (size : Nat)
    (fields : List.Forall₂ (fun a b => a.1 = b.1 ∧ R a.2 b.2) as bs) :
    Corresponds R (.struct size as) (.struct size bs)
  | function {r s : Option NodeId} {as bs : List (Option NodeId)} (results : Option.Rel R r s)
    (params : List.Forall₂ (Option.Rel R) as bs) : Corresponds R (.function r as) (.function s bs)

def Pairs (R : NodeId → NodeId → Prop) (found : Option (List (NodeId × NodeId))) : Prop :=
  ∃ pairs, found = some pairs ∧ ∀ pair ∈ pairs, R pair.1 pair.2

section
variable {R : NodeId → NodeId → Prop}

private theorem pairs_none : ¬ Pairs R none := by
  intro paired
  obtain ⟨_, found, _⟩ := paired
  contradiction

private theorem pairs_some {l : List (NodeId × NodeId)} :
    Pairs R (some l) ↔ ∀ pair ∈ l, R pair.1 pair.2 := by
  simp [Pairs]

private theorem pairs_append {first second : Option (List (NodeId × NodeId))} :
    Pairs R (do return (← first) ++ (← second)) ↔ Pairs R first ∧ Pairs R second := by
  cases first with
  | none => exact iff_of_false pairs_none fun both => pairs_none both.1
  | some l =>
    cases second with
    | none => exact iff_of_false pairs_none fun both => pairs_none both.2
    | some m =>
      have joined : (do return (← some l) ++ (← some m)) = some (l ++ m) := rfl
      rw [joined, pairs_some, pairs_some, pairs_some, List.forall_mem_append]

private theorem pairs_cons {pair : NodeId × NodeId} {found : Option (List (NodeId × NodeId))} :
    Pairs R (found.map (pair :: ·)) ↔ R pair.1 pair.2 ∧ Pairs R found := by
  cases found with
  | none => exact iff_of_false pairs_none fun both => pairs_none both.2
  | some l => rw [Option.map_some, pairs_some, pairs_some, List.forall_mem_cons]

private theorem pairs_pairRefs {a b : Option NodeId} :
    Pairs R (pairRefs a b) ↔ Option.Rel R a b := by
  fun_cases pairRefs a b with
  | case1 a b => simp [pairs_some]
  | case2 => simp [pairs_some]
  | case3 a b left right =>
    apply iff_of_false pairs_none
    intro related
    cases related with
    | some _ => exact left _ _ rfl rfl
    | none => exact right rfl rfl

private theorem pairs_pairParams {as bs : List (Option NodeId)} :
    Pairs R (pairParams as bs) ↔ List.Forall₂ (Option.Rel R) as bs := by
  fun_induction pairParams as bs with
  | case1 => simp [pairs_some]
  | case2 a as b bs ih => rw [pairs_append, pairs_pairRefs, ih, List.forall₂_cons]
  | case3 as bs empty full =>
    apply iff_of_false pairs_none
    intro related
    cases related with
    | nil => exact empty rfl rfl
    | cons _ _ => exact full _ _ _ _ rfl rfl

private theorem pairs_pairFields {as bs : List (Nat × NodeId)} :
    Pairs R (pairFields as bs) ↔ List.Forall₂ (fun a b => a.1 = b.1 ∧ R a.2 b.2) as bs := by
  fun_induction pairFields as bs with
  | case1 => simp [pairs_some]
  | case2 a as i b bs ih => rw [pairs_cons, ih, List.forall₂_cons, and_iff_right rfl]
  | case3 i a as j b bs apart =>
    apply iff_of_false pairs_none
    intro related
    exact apart (List.forall₂_cons.mp related).1.1
  | case4 as bs empty full =>
    apply iff_of_false pairs_none
    intro related
    cases related with
    | nil => exact empty rfl rfl
    | cons _ _ => exact full _ _ _ _ _ _ rfl rfl

theorem corresponds_of_pairs {x y : TypeNode} :
    Pairs R (x.pairs? y) → x.Corresponds R y := by
  fun_cases TypeNode.pairs? x y with
  | case1 => exact fun _ => .void
  | case2 => exact fun _ => .bool
  | case3 size => exact fun _ => .char size
  | case5 size signed _ _ same =>
    obtain ⟨rfl, rfl⟩ := same
    exact fun _ => .int size signed
  | case7 size => exact fun _ => .float size
  | case9 size => exact fun _ => .unknown size
  | case11 a b => exact fun paired => .pointer (pairs_pairRefs.mp paired)
  | case12 a b count => exact fun paired => .array (pairs_some.mp paired _ List.mem_cons_self) count
  | case14 as size bs => exact fun paired => .struct size (pairs_pairFields.mp paired)
  | case16 r as s bs =>
    intro paired
    obtain ⟨results, params⟩ := pairs_append.mp paired
    exact .function (pairs_pairRefs.mp results) (pairs_pairParams.mp params)
  | case4 | case6 | case8 | case10 | case13 | case15 | case17 =>
    exact fun paired => absurd paired pairs_none

private theorem pairs_of_corresponds {x y : TypeNode} (corresponds : x.Corresponds R y) :
    Pairs R (x.pairs? y) := by
  cases corresponds with
  | void | bool => simp [TypeNode.pairs?, pairs_some]
  | char | int | float | unknown => simp [TypeNode.pairs?, pairs_some]
  | pointer pointees => exact pairs_pairRefs.mpr pointees
  | array elements count => simpa [TypeNode.pairs?, pairs_some] using elements
  | struct size fields => simpa [TypeNode.pairs?] using pairs_pairFields.mpr fields
  | function results params =>
    exact pairs_append.mpr ⟨pairs_pairRefs.mpr results, pairs_pairParams.mpr params⟩

end

section
variable {R S T : NodeId → NodeId → Prop}

theorem forall₂_comp {α β γ : Type} {R : α → β → Prop} {S : β → γ → Prop} {T : α → γ → Prop}
    {l : List α} {others : List β} {last : List γ} (comp : ∀ a b c, R a b → S b c → T a c)
    (first : List.Forall₂ R l others) (second : List.Forall₂ S others last) :
    List.Forall₂ T l last := by
  induction first generalizing last with
  | nil =>
    cases second
    exact .nil
  | cons related _ ih =>
    cases second with
    | cons related' rest => exact .cons (comp _ _ _ related related') (ih rest)

private theorem optionRel_comp (comp : ∀ a b c, R a b → S b c → T a c) (a b c : Option NodeId)
    (first : Option.Rel R a b) (second : Option.Rel S b c) : Option.Rel T a c := by
  cases first with
  | none =>
    cases second
    exact .none
  | some related =>
    cases second with
    | some related' => exact .some (comp _ _ _ related related')

private theorem optionRel_swap {a b : Option NodeId} (related : Option.Rel R a b) :
    Option.Rel (fun b a => R a b) b a := by
  cases related with
  | none => exact .none
  | some related => exact .some related

namespace TypeNode.Corresponds
variable {x y z : TypeNode}

theorem comp (comp : ∀ a b c, R a b → S b c → T a c) (first : x.Corresponds R y)
    (second : y.Corresponds S z) : x.Corresponds T z := by
  cases first with
  | void =>
    cases second
    exact .void
  | bool =>
    cases second
    exact .bool
  | char size =>
    cases second
    exact .char size
  | int size signed =>
    cases second
    exact .int size signed
  | float size =>
    cases second
    exact .float size
  | unknown size =>
    cases second
    exact .unknown size
  | pointer pointees =>
    cases second with
    | pointer pointees' => exact .pointer (optionRel_comp comp _ _ _ pointees pointees')
  | array elements count =>
    cases second with
    | array elements' => exact .array (comp _ _ _ elements elements') count
  | struct size fields =>
    cases second with
    | struct _ fields' =>
      apply Corresponds.struct size
      apply forall₂_comp _ fields fields'
      intro a b c left right
      exact ⟨left.1.trans right.1, comp _ _ _ left.2 right.2⟩
  | function results params =>
    cases second with
    | function results' params' =>
      exact .function (optionRel_comp comp _ _ _ results results')
        (forall₂_comp (optionRel_comp comp) params params')

theorem mono (wide : ∀ a b, R a b → S a b) (corresponds : x.Corresponds R y) :
    x.Corresponds S y :=
  corresponds_of_pairs ((pairs_of_corresponds corresponds).imp fun _ paired =>
    ⟨paired.1, fun pair listed => wide _ _ (paired.2 pair listed)⟩)

private theorem swap (corresponds : x.Corresponds R y) : y.Corresponds (fun b a => R a b) x := by
  cases corresponds with
  | void => exact .void
  | bool => exact .bool
  | char size => exact .char size
  | int size signed => exact .int size signed
  | float size => exact .float size
  | unknown size => exact .unknown size
  | pointer pointees => exact .pointer (optionRel_swap pointees)
  | array elements count => exact .array (R := fun b a => R a b) elements count
  | struct size fields =>
    apply Corresponds.struct size
    apply List.Forall₂.flip
    exact fields.imp fun a b related => ⟨related.1.symm, related.2⟩
  | function results params =>
    apply Corresponds.function (optionRel_swap results)
    apply List.Forall₂.flip
    exact params.imp fun a b related => optionRel_swap related

theorem self_iff : x.Corresponds R x ↔ ∀ r ∈ x.refs, R r r := by
  have option (ref : Option NodeId) : Option.Rel R ref ref ↔ ∀ r ∈ ref.toList, R r r := by
    cases ref with
    | none => simp
    | some id => simp
  have params (refs : List (Option NodeId)) :
      List.Forall₂ (Option.Rel R) refs refs ↔ ∀ r ∈ refs.filterMap id, R r r := by
    simp only [List.forall₂_same, option, List.mem_filterMap, id, Option.mem_toList]
    grind
  constructor
  · intro corresponds
    cases corresponds with
    | pointer pointees => exact (option _).mp pointees
    | array elements => simpa [TypeNode.refs] using elements
    | struct _ fields =>
      have related := List.forall₂_same.mp fields
      simp only [TypeNode.refs, List.mem_map]
      rintro r ⟨field, listed, rfl⟩
      exact (related field listed).2
    | function results args =>
      exact List.forall_mem_append.mpr ⟨(option _).mp results, (params _).mp args⟩
    | _ => simp [TypeNode.refs]
  · intro related
    cases x with
    | void => exact .void
    | bool => exact .bool
    | char size => exact .char size
    | int size signed => exact .int size signed
    | float size => exact .float size
    | unknown size => exact .unknown size
    | pointer pointee => exact .pointer ((option _).mpr related)
    | array element count => exact .array (related element List.mem_cons_self) count
    | struct size fields =>
      apply Corresponds.struct size
      apply List.forall₂_same.mpr
      intro field listed
      exact ⟨rfl, related _ (List.mem_map_of_mem listed)⟩
    | function ret args =>
      obtain ⟨first, rest⟩ := List.forall_mem_append.mp related
      exact .function ((option _).mpr first) ((params _).mpr rest)

end TypeNode.Corresponds
end

namespace TypeTable
variable {s t u : TypeTable} {a b c : NodeId} {R : NodeId → NodeId → Prop}

/-- Related types are there, and correspond to each other by way of related types. -/
def Bisimulation (s t : TypeTable) (R : NodeId → NodeId → Prop) : Prop :=
  ∀ a b, R a b → ∃ x y, s.get? a = some x ∧ t.get? b = some y ∧ x.Corresponds R y

theorem agree_of_bisimulation (bisimulation : s.Bisimulation t R)
    (unmet todo : List (NodeId × NodeId)) (all : ∀ pair ∈ todo, R pair.1 pair.2) :
    s.agree t unmet todo = true := by
  fun_induction agree s t unmet todo with
  | case1 => rfl
  | case2 unmet a b todo x y right left inside pairs paired ih =>
    obtain ⟨related, later⟩ := List.forall_mem_cons.mp all
    obtain ⟨x', y', left', right', corresponds⟩ := bisimulation a b related
    obtain rfl := Option.some.inj (left.symm.trans left')
    obtain rfl := Option.some.inj (right.symm.trans right')
    have inner : Pairs R (some pairs) := paired ▸ pairs_of_corresponds corresponds
    exact ih (List.forall_mem_append.mpr ⟨pairs_some.mp inner, later⟩)
  | case3 unmet a b todo x y right left inside apart =>
    obtain ⟨x', y', left', right', corresponds⟩ := bisimulation a b (all _ List.mem_cons_self)
    obtain rfl := Option.some.inj (left.symm.trans left')
    obtain rfl := Option.some.inj (right.symm.trans right')
    have paired := pairs_of_corresponds corresponds
    rw [apart] at paired
    exact absurd paired pairs_none
  | case4 unmet a b todo x y right left outside ih =>
    exact ih (List.forall_mem_cons.mp all).2
  | case5 unmet a b todo absent =>
    obtain ⟨x, y, left, right, _⟩ := bisimulation a b (all _ List.mem_cons_self)
    exact (absent x y left right).elim

def Compared (s t : TypeTable) (unmet : List (NodeId × NodeId))
    (R : NodeId → NodeId → Prop) : Prop :=
  ∀ a b, R a b → ∃ x y, s.get? a = some x ∧ t.get? b = some y ∧
    ((a, b) ∈ unmet → x.Corresponds R y)

theorem Compared.insert {unmet wider : List (NodeId × NodeId)} {x y : TypeNode}
    (compared : s.Compared t unmet R) (left : s.get? a = some x) (right : t.get? b = some y)
    (here : (a, b) ∈ wider → x.Corresponds R y)
    (rest : ∀ pair ∈ wider, pair ≠ (a, b) → pair ∈ unmet) :
    s.Compared t wider fun p q => (p, q) = (a, b) ∨ R p q := by
  have mono {x y : TypeNode} (corresponds : x.Corresponds R y) :
      x.Corresponds (fun p q => (p, q) = (a, b) ∨ R p q) y :=
    corresponds.mono fun _ _ related => .inr related
  intro p q related
  by_cases same : (p, q) = (a, b)
  · obtain ⟨rfl, rfl⟩ := Prod.mk.inj same
    exact ⟨x, y, left, right, fun inside => mono (here inside)⟩
  · obtain ⟨x', y', left', right', met⟩ := compared p q (related.resolve_left same)
    exact ⟨x', y', left', right', fun inside => mono (met (rest _ inside same))⟩

private theorem exists_compared {unmet todo : List (NodeId × NodeId)}
    (agrees : s.agree t unmet todo = true) :
    ∃ R, s.Compared t unmet R ∧ ∀ pair ∈ todo, R pair.1 pair.2 := by
  -- The relation has what is still to be compared and what that leads to.
  fun_induction agree s t unmet todo with
  | case1 => exact ⟨fun _ _ => False, fun _ _ related => related.elim, by simp⟩
  | case2 unmet a b todo x y right left inside pairs paired ih =>
    obtain ⟨R, compared, all⟩ := ih agrees
    obtain ⟨inner, later⟩ := List.forall_mem_append.mp all
    have corresponds : x.Corresponds R y := corresponds_of_pairs ⟨pairs, paired, inner⟩
    refine ⟨_, compared.insert left right (fun _ => corresponds) ?_, ?_⟩
    · exact fun pair listed apart => (List.mem_erase_of_ne apart).mpr listed
    · exact List.forall_mem_cons.mpr ⟨.inl rfl, fun pair listed => .inr (later pair listed)⟩
  | case3 unmet a b todo x y right left inside apart => contradiction
  | case4 unmet a b todo x y right left outside ih =>
    obtain ⟨R, compared, all⟩ := ih agrees
    refine ⟨_, compared.insert left right (fun inside => absurd inside outside) ?_, ?_⟩
    · exact fun pair listed _ => listed
    · exact List.forall_mem_cons.mpr ⟨.inl rfl, fun pair listed => .inr (all pair listed)⟩
  | case5 unmet a b todo absent => contradiction

theorem mem_pairsWith : (a, b) ∈ s.pairsWith t ↔ s.contains a ∧ t.contains b := by
  simp only [pairsWith, List.mem_flatMap, List.mem_map, Prod.mk.injEq, OrdMap.contains_iff,
    OrdMap.mem_keys]
  grind

theorem equivalent_iff :
    s.equivalent a t b = true ↔ ∃ R, s.Bisimulation t R ∧ R a b := by
  constructor
  · intro agrees
    obtain ⟨R, compared, all⟩ := exists_compared agrees
    refine ⟨R, ?_, all (a, b) List.mem_cons_self⟩
    intro p q related
    obtain ⟨x, y, left, right, met⟩ := compared p q related
    refine ⟨x, y, left, right, met (mem_pairsWith.mpr ?_)⟩
    exact ⟨(OrdMap.contains_iff _ _).mpr ⟨x, left⟩, (OrdMap.contains_iff _ _).mpr ⟨y, right⟩⟩
  · intro bisimilar
    obtain ⟨R, bisimulation, related⟩ := bisimilar
    apply agree_of_bisimulation bisimulation
    intro pair listed
    obtain rfl := List.mem_singleton.mp listed
    exact related

theorem equivalent_symm (same : s.equivalent a t b = true) : t.equivalent b s a = true := by
  obtain ⟨R, bisimulation, related⟩ := equivalent_iff.mp same
  apply equivalent_iff.mpr
  refine ⟨fun b a => R a b, ?_, related⟩
  intro q p related
  obtain ⟨x, y, left, right, corresponds⟩ := bisimulation p q related
  exact ⟨y, x, right, left, corresponds.swap⟩

theorem equivalent_trans (first : s.equivalent a t b = true) (second : t.equivalent b u c = true) :
    s.equivalent a u c = true := by
  obtain ⟨R, bisimulation, related⟩ := equivalent_iff.mp first
  obtain ⟨S, bisimulation', related'⟩ := equivalent_iff.mp second
  apply equivalent_iff.mpr
  refine ⟨Relation.Comp R S, ?_, b, related, related'⟩
  rintro p q ⟨m, before, after⟩
  obtain ⟨x, y, left, middle, corresponds⟩ := bisimulation p m before
  obtain ⟨y', z, middle', right, corresponds'⟩ := bisimulation' m q after
  obtain rfl := Option.some.inj (middle.symm.trans middle')
  exact ⟨x, z, left, right, corresponds.comp (fun _ n _ up down => ⟨n, up, down⟩) corresponds'⟩

def Refers (s : TypeTable) (a b : NodeId) : Prop := ∃ node, s.get? a = some node ∧ b ∈ node.refs

theorem equivalent_self_iff :
    s.equivalent a s a = true ↔ ∀ b, ReflTransGen s.Refers a b → s.contains b := by
  rw [equivalent_iff]
  constructor
  · intro bisimilar b path
    obtain ⟨R, bisimulation, related⟩ := bisimilar
    have diagonal : R b b := by
      induction path with
      | refl => exact related
      | tail _ step ih =>
        obtain ⟨node, found, inside⟩ := step
        obtain ⟨x, y, left, right, corresponds⟩ := bisimulation _ _ ih
        obtain rfl := Option.some.inj (found.symm.trans left)
        obtain rfl := Option.some.inj (found.symm.trans right)
        exact TypeNode.Corresponds.self_iff.mp corresponds _ inside
    obtain ⟨x, _, found, _⟩ := bisimulation b b diagonal
    exact (OrdMap.contains_iff _ _).mpr ⟨x, found⟩
  · intro present
    refine ⟨fun p q => p = q ∧ ReflTransGen s.Refers a p, ?_, rfl, .refl⟩
    rintro p _ ⟨rfl, path⟩
    obtain ⟨node, found⟩ := (OrdMap.contains_iff _ _).mp (present p path)
    refine ⟨node, node, found, found, TypeNode.Corresponds.self_iff.mpr ?_⟩
    exact fun r inside => ⟨rfl, path.tail ⟨node, found, inside⟩⟩

/-- Comparing decides bisimilarity, on cyclic and on incomplete tables alike. It is symmetric and
transitive, and a type is equivalent to itself just if nothing it leads to is missing. -/
theorem equivalent_is_bisimilarity (s t : TypeTable) (a b : NodeId) :
    (s.equivalent a t b = true ↔ ∃ R, s.Bisimulation t R ∧ R a b) ∧
      s.equivalent a t b = t.equivalent b s a ∧
      (∀ u c, s.equivalent a t b = true → t.equivalent b u c = true →
        s.equivalent a u c = true) ∧
      (s.equivalent a s a = true ↔ ∀ x, ReflTransGen s.Refers a x → s.contains x) := by
  refine ⟨equivalent_iff, ?_, fun _ _ => equivalent_trans, equivalent_self_iff⟩
  rw [Bool.eq_iff_iff]
  exact ⟨equivalent_symm, equivalent_symm⟩

/-- A list of numbers: a pointer to a record of a number and of the pointer itself. -/
def listTable : TypeTable := OrdMap.ofList
  [(⟨1⟩, .pointer (some ⟨2⟩)), (⟨2⟩, .struct 16 [(0, ⟨3⟩), (8, ⟨1⟩)]), (⟨3⟩, .int 4 true)]

/-- The same list with a cycle of two records, and a pointer to a type that is not there. -/
def unrolledTable : TypeTable := OrdMap.ofList
  [(⟨1⟩, .pointer (some ⟨2⟩)), (⟨2⟩, .struct 16 [(0, ⟨5⟩), (8, ⟨3⟩)]),
    (⟨3⟩, .pointer (some ⟨4⟩)), (⟨4⟩, .struct 16 [(0, ⟨5⟩), (8, ⟨1⟩)]), (⟨5⟩, .int 4 true),
    (⟨6⟩, .pointer (some ⟨7⟩))]

theorem equivalent_is_bisimilarity_list :
    (∃ R, unrolledTable.Bisimulation listTable R ∧ R ⟨1⟩ ⟨1⟩) ∧
      unrolledTable.equivalent ⟨1⟩ unrolledTable ⟨3⟩ = true ∧
      ¬ ∀ x, ReflTransGen unrolledTable.Refers ⟨6⟩ x → unrolledTable.contains x := by
  have first : unrolledTable.equivalent ⟨1⟩ listTable ⟨1⟩ = true := by cbv
  have second : listTable.equivalent ⟨1⟩ unrolledTable ⟨3⟩ = true := by cbv
  obtain ⟨bisimilar, -, trans, -⟩ := equivalent_is_bisimilarity unrolledTable listTable ⟨1⟩ ⟨1⟩
  obtain ⟨-, -, -, self⟩ := equivalent_is_bisimilarity unrolledTable listTable ⟨6⟩ ⟨1⟩
  have broken : unrolledTable.equivalent ⟨6⟩ unrolledTable ⟨6⟩ = false := by cbv
  refine ⟨bisimilar.mp first, trans _ _ first second, fun complete => ?_⟩
  rw [self.mpr complete] at broken
  contradiction

end TypeTable
end TypeRecovery
