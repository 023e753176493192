import Mathlib.Data.List.Chain
import TypeRecovery.Proofs.Concrete.Declarations

/-! When the name of a pointer or array is made of the name of what it refers to. That fails only where
the type leads back to itself and is named while what it refers to has no name yet. -/
namespace TypeRecovery
open Relation

/-- What a pointer or array refers to, and what it adds to that type's name. -/
def Concrete.wraps? : Concrete → Option (Handle × String)
  | pointer (some target) _ => some (target, "*")
  | array (some member) length => some (member, "[" ++ Nat.repr length ++ "]")
  | _ => none

namespace Arena

def Wraps (arena : Arena) (h r : Handle) (suffix : String) : Prop :=
  ∃ node, arena.get? h = some node ∧ node.wraps? = some (r, suffix)

/-- A type whose name is known to all that is met behind it: a structure or union, which is named
first, or a pointer to one. -/
def Steady (arena : Arena) (r : Handle) : Prop :=
  arena.Aggregate r ∨ ∃ q size, arena.get? r = some (.pointer (some q) size) ∧ arena.Aggregate q

end Arena

namespace Naming
variable {arena : Arena} {active : List Handle} {s t u : Naming} {h r x : Handle}
  {node target : Concrete} {refs : List (Option Handle)} {name suffix : String}

private theorem title?_of_wraps (wraps : node.wraps? = some (r, suffix)) : node.title? = none := by
  cases node <;> simp_all [Concrete.wraps?, Concrete.title?]

private theorem refs_of_wraps (wraps : node.wraps? = some (r, suffix)) : node.refs = [some r] := by
  unfold Concrete.wraps? at wraps
  split at wraps <;> simp_all [Concrete.refs]

private theorem lateName?_of_wraps (wraps : node.wraps? = some (r, suffix)) :
    s.lateName? arena node = some (s.label arena "void" (some r) ++ suffix) := by
  unfold Concrete.wraps? at wraps
  split at wraps
  next =>
    cases wraps
    rfl
  next =>
    cases wraps
    simp only [lateName?, String.append_assoc]
    rfl
  next => contradiction

private theorem not_aggregate_of_wraps (found : arena.get? h = some node)
    (wraps : node.wraps? = some (r, suffix)) : ¬ arena.Aggregate h := by
  rintro ⟨_, found', titled⟩
  obtain rfl := Option.some.inj (found.symm.trans found')
  exact titled (title?_of_wraps wraps)

private theorem provisional_cases (s : Naming) (target : Concrete) :
    (∃ q size inner, target = .pointer (some q) size ∧ s.get? q = some inner ∧
      s.provisional target = inner ++ "*") ∨
    s.provisional target = "void" ∧ ∀ q size, target = .pointer (some q) size → s.get? q = none := by
  unfold provisional
  split
  next q size =>
    cases named : s.get? q with
    | some inner => exact .inl ⟨q, size, inner, rfl, named, rfl⟩
    | none =>
      refine .inr ⟨rfl, fun q' size' same => ?_⟩
      cases same
      exact named
  next other => exact .inr ⟨rfl, fun q size same => absurd same (other q size)⟩

private theorem provisional_eq_void
    (blank : ∀ q size, target = .pointer (some q) size → s.get? q = none) :
    s.provisional target = "void" := by
  rcases s.provisional_cases target with ⟨q, size, inner, same, named, _⟩ | ⟨void, _⟩
  · rw [blank q size same] at named
    contradiction
  · exact void

/-- How the name of a pointer or array to `r` came about: from the name of `r`; without one, for a type
that leads back; or ahead of `r`, which is being named, from what `r` points to. -/
inductive Tie (arena : Arena) (active : List Handle) (names : Handle → Option String)
    (h r : Handle) (suffix : String) : String → Prop where
  | composed {inner : String} (named : names r = some inner) :
    Tie arena active names h r suffix (inner ++ suffix)
  | loose (back : ReflTransGen arena.Refers r h) (unsteady : ¬ arena.Steady r) :
    Tie arena active names h r suffix ("void" ++ suffix)
  | ahead {q : Handle} {size : Nat} {inner : String} (busy : r ∈ active) (unnamed : names r = none)
    (found : arena.get? r = some (.pointer (some q) size)) (named : names q = some inner) :
    Tie arena active names h r suffix (inner ++ "*" ++ suffix)

def Tied (arena : Arena) (active : List Handle) (s : Naming) : Prop :=
  ∀ h r suffix name, arena.Wraps h r suffix → (∃ target, arena.get? r = some target) →
    s.get? h = some name → Tie arena active s.get? h r suffix name

/-- The types that are being named, the innermost first. Each is referred to by the next one, and
structures and unions among them have their names. -/
structure Stacked (arena : Arena) (active : List Handle) (s : Naming) : Prop where
  chain : active.IsChain fun inner outer => arena.Refers outer inner
  named : ∀ a ∈ active, arena.Aggregate a → s.Knows a

private theorem leads_of_chain
    (chain : (h :: active).IsChain fun inner outer => arena.Refers outer inner)
    (busy : r ∈ h :: active) : ReflTransGen arena.Refers r h := by
  induction active generalizing h with
  | nil =>
    obtain rfl := List.mem_singleton.mp busy
    exact .refl
  | cons a active ih =>
    obtain ⟨refers, chain⟩ := List.isChain_cons_cons.mp chain
    rcases List.mem_cons.mp busy with rfl | outer
    · exact .refl
    · exact (ih chain outer).tail refers

private theorem above_of_chain
    (chain : (h :: active).IsChain fun inner outer => arena.Refers outer inner)
    (busy : r ∈ active) : ∃ b ∈ h :: active, arena.Refers r b := by
  induction active generalizing h with
  | nil => contradiction
  | cons a active ih =>
    obtain ⟨refers, chain⟩ := List.isChain_cons_cons.mp chain
    rcases List.mem_cons.mp busy with rfl | outer
    · exact ⟨h, List.mem_cons_self, refers⟩
    · obtain ⟨b, inside, step⟩ := ih chain outer
      exact ⟨b, List.mem_cons_of_mem h inside, step⟩

private theorem Stacked.knows_target {q : Handle} {size : Nat}
    (stacked : Stacked arena (h :: active) s)
    (busy : r ∈ active) (found : arena.get? r = some (.pointer (some q) size))
    (aggregate : arena.Aggregate q) : s.Knows q := by
  obtain ⟨b, inside, refers⟩ := above_of_chain stacked.chain busy
  obtain ⟨_, found', listed⟩ := Arena.refers_iff.mp refers
  obtain rfl := Option.some.inj (found.symm.trans found')
  obtain rfl : b = q := Option.some.inj (List.mem_singleton.mp listed)
  exact stacked.named b inside aggregate

theorem Stacked.kept (stacked : Stacked arena active s) {more : List Handle}
    (visits : Visits arena more s refs t) : Stacked arena active t :=
  ⟨stacked.chain, fun a busy aggregate => visits.kept_knows (stacked.named a busy aggregate)⟩

theorem Stacked.opened (stacked : Stacked arena active s) (unnamed : s.get? h = none)
    (found : arena.get? h = some node) (top : ∀ a ∈ active.head?, arena.Refers a h) :
    Stacked arena (h :: active) (s.opened h node) where
  chain := List.isChain_cons.mpr ⟨top, stacked.chain⟩
  named a busy aggregate := by
    rcases List.mem_cons.mp busy with rfl | outer
    · obtain ⟨_, found', titled⟩ := aggregate
      obtain rfl := Option.some.inj (found.symm.trans found')
      obtain ⟨own, given⟩ := Option.ne_none_iff_exists'.mp titled
      exact ⟨_, opened_knows given⟩
    · obtain ⟨name, given⟩ := stacked.named a outer aggregate
      exact ⟨name, opened_kept unnamed given⟩

theorem Tied.opened (tied : Tied arena active s) (unnamed : s.get? h = none) (fresh : h ∉ active)
    (found : arena.get? h = some node) : Tied arena (h :: active) (s.opened h node) := by
  intro x r suffix name wraps present named
  have before : s.get? x = some name := by
    by_cases same : x = h
    · subst same
      obtain ⟨_, found', wraps⟩ := wraps
      obtain rfl := Option.some.inj (found.symm.trans found')
      rwa [opened_of_untitled (title?_of_wraps wraps)] at named
    · rwa [opened_get?_of_ne same] at named
  cases tied x r suffix name wraps present before with
  | composed given => exact .composed (opened_kept unnamed given)
  | loose back unsteady => exact .loose back unsteady
  | ahead busy waiting pointer given =>
    have apart : r ≠ h := ne_of_mem_of_not_mem busy fresh
    exact .ahead (List.mem_cons_of_mem h busy) ((opened_get?_of_ne apart).trans waiting) pointer
      (opened_kept unnamed given)

private theorem tie_closed (stacked : Stacked arena (h :: active) t)
    (found : arena.get? h = some node)
    (wraps : node.wraps? = some (r, suffix)) (unnamed : t.get? h = none)
    (present : arena.get? r = some target) (visited : t.Knows r ∨ r ∈ h :: active) :
    Tie arena active (t.closed arena h node).get? h r suffix
      (t.label arena "void" (some r) ++ suffix) := by
  have kept {x : Handle} {name : String} (named : t.get? x = some name) :
      (t.closed arena h node).get? x = some name := closed_kept (fun _ => unnamed) named
  cases given : t.get? r with
  | some inner =>
    rw [label_of_named given]
    exact .composed (kept given)
  | none =>
    have busy : r ∈ h :: active := visited.resolve_left (not_knows_of_get? given)
    -- The target of a pointer to itself is the pointer, which has no name yet.
    have self (same : r = h) (q : Handle) (size : Nat) (pointer : target = .pointer (some q) size) :
        q = h := by
      subst same pointer
      obtain rfl := Option.some.inj (found.symm.trans present)
      have listed := refs_of_wraps wraps
      simpa [Concrete.refs] using listed
    rw [label_of_unnamed given present]
    rcases t.provisional_cases target with ⟨q, size, inner, pointer, named, called⟩ | ⟨called, blank⟩
    · have apart : r ≠ h := by
        intro same
        rw [self same q size pointer, unnamed] at named
        contradiction
      rw [called]
      exact .ahead ((List.mem_cons.mp busy).resolve_left apart)
        ((closed_get?_of_ne apart).trans given) (pointer ▸ present) (kept named)
    · rw [called]
      refine .loose (leads_of_chain stacked.chain busy) ?_
      rintro (aggregate | ⟨q, size, pointer, aggregate⟩)
      · exact not_knows_of_get? given (stacked.named r busy aggregate)
      · have same : target = .pointer (some q) size := Option.some.inj (present.symm.trans pointer)
        rcases List.mem_cons.mp busy with here | outer
        · rw [self here q size same] at aggregate
          exact not_aggregate_of_wraps found wraps aggregate
        · exact not_knows_of_get? (blank q size same) (stacked.knows_target outer pointer aggregate)

theorem Tied.closed (tied : Tied arena (h :: active) t) (stacked : Stacked arena (h :: active) t)
    (found : arena.get? h = some node) (unnamed : node.title? = none → t.get? h = none)
    (parts : ∀ r other, some r ∈ node.refs → arena.get? r = some other →
      t.Knows r ∨ r ∈ h :: active) : Tied arena active (t.closed arena h node) := by
  intro x r suffix name wraps present named
  by_cases same : x = h
  · subst same
    obtain ⟨_, found', wraps⟩ := wraps
    obtain rfl := Option.some.inj (found.symm.trans found')
    obtain ⟨target, present⟩ := present
    rw [closed_knows (lateName?_of_wraps wraps)] at named
    obtain rfl := Option.some.inj named
    have listed : some r ∈ node.refs := by simp [refs_of_wraps wraps]
    exact tie_closed stacked found wraps (unnamed (title?_of_wraps wraps)) present
      (parts r target listed present)
  · rw [closed_get?_of_ne same] at named
    cases tied x r suffix name wraps present named with
    | composed given => exact .composed (closed_kept unnamed given)
    | loose back unsteady => exact .loose back unsteady
    | @ahead q size inner busy waiting pointer given =>
      by_cases here : r = h
      · -- The name that was told ahead is the one that the target gets now.
        subst here
        obtain rfl := Option.some.inj (found.symm.trans pointer)
        have late : t.lateName? arena (.pointer (some q) size) = some (inner ++ "*") := by
          rw [lateName?, label_of_named given]
        exact .composed (closed_knows late)
      · exact .ahead ((List.mem_cons.mp busy).resolve_left here)
          ((closed_get?_of_ne here).trans waiting) pointer (closed_kept unnamed given)

private theorem Visits.tied (visits : Visits arena active s refs t)
    (stacked : Stacked arena active s)
    (within : ∀ a ∈ active.head?, ∀ r, some r ∈ refs → arena.Refers a r)
    (swept : Swept arena active s) (tied : Tied arena active s) : Tied arena active t := by
  induction visits with
  | done => exact tied
  | @skip active s t u ref rest skips later ih =>
    have within' := fun a top r listed => within a top r (List.mem_cons_of_mem ref listed)
    cases skips <;> exact ih ⟨stacked.chain, stacked.named⟩ within' swept tied
  | @enter active s t u h node rest unnamed found fresh inner later inside afterwards =>
    have entered : Visits arena active s [some h] (t.closed arena h node) :=
      .enter unnamed found fresh inner .done
    have stacked' : Stacked arena (h :: active) (s.opened h node) :=
      stacked.opened unnamed found fun a top => within a top h List.mem_cons_self
    have refers (a : Handle) (top : a ∈ (h :: active).head?) (r : Handle) (listed : some r ∈ node.refs) :
        arena.Refers a r := by
      obtain rfl := Option.some.inj top
      exact Arena.refers_iff.mpr ⟨node, found, listed⟩
    obtain ⟨nested, parts⟩ := inner.complete swept.opened
    have tied' : Tied arena (h :: active) t :=
      inside stacked' refers swept.opened (tied.opened unnamed fresh found)
    exact afterwards (stacked.kept entered)
      (fun a top r listed => within a top r (List.mem_cons_of_mem _ listed))
      (nested.closed found inner.knows_of_titled parts)
      (tied'.closed (stacked'.kept inner) found (inner.unnamed_inside unnamed) parts)

/-- A type that is being named and of which nothing can be told yet: if it is a pointer, then its target
is being named, too. -/
structure Blind (arena : Arena) (active : List Handle) (s : Naming) (r : Handle) : Prop where
  busy : r ∈ active
  unnamed : s.get? r = none
  target : ∀ q size, arena.get? r = some (.pointer (some q) size) → q ∈ active ∧ s.get? q = none

namespace Blind

theorem kept (blind : Blind arena active s r) (visits : Visits arena active s refs t) :
    Blind arena active t r where
  busy := blind.busy
  unnamed := (visits.untouched blind.busy).trans blind.unnamed
  target q size pointer := by
    obtain ⟨busy, unnamed⟩ := blind.target q size pointer
    exact ⟨busy, (visits.untouched busy).trans unnamed⟩

theorem opened (blind : Blind arena active s r) (fresh : h ∉ active) :
    Blind arena (h :: active) (s.opened h node) r where
  busy := List.mem_cons_of_mem h blind.busy
  unnamed := (opened_get?_of_ne (ne_of_mem_of_not_mem blind.busy fresh)).trans blind.unnamed
  target q size pointer := by
    obtain ⟨busy, unnamed⟩ := blind.target q size pointer
    exact ⟨List.mem_cons_of_mem h busy,
      (opened_get?_of_ne (ne_of_mem_of_not_mem busy fresh)).trans unnamed⟩

theorem closed_get? (blind : Blind arena active s r) (present : arena.get? r = some target)
    (wraps : node.wraps? = some (r, suffix)) :
    (s.closed arena h node).get? h = some ("void" ++ suffix) := by
  have called : s.provisional target = "void" :=
    provisional_eq_void fun q size pointer => (blind.target q size (pointer ▸ present)).2
  rw [closed_knows (lateName?_of_wraps wraps), label_of_unnamed blind.unnamed present, called]

end Blind

/-- Pointers and arrays to a type of which nothing can be told are named without it. -/
theorem Visits.eq_of_blind (visits : Visits arena active s refs t) (blind : Blind arena active s r)
    (wraps : arena.Wraps x r suffix) (present : arena.get? r = some target) (new : s.get? x = none)
    (named : t.get? x = some name) : name = "void" ++ suffix := by
  induction visits with
  | done =>
    rw [new] at named
    contradiction
  | skip skips _ ih =>
    cases skips <;> exact ih ⟨blind.busy, blind.unnamed, blind.target⟩ new named
  | @enter active s t u h node rest unnamed found fresh inner later inside afterwards =>
    have entered : Visits arena active s [some h] (t.closed arena h node) :=
      .enter unnamed found fresh inner .done
    have blind' : Blind arena (h :: active) (s.opened h node) r := blind.opened fresh
    by_cases same : x = h
    · subst same
      obtain ⟨_, found', wraps⟩ := wraps
      obtain rfl := Option.some.inj (found.symm.trans found')
      rw [later.kept ((blind'.kept inner).closed_get? present wraps)] at named
      exact (Option.some.inj named).symm
    · have apart : (t.closed arena h node).get? x = t.get? x := closed_get?_of_ne same
      cases given : t.get? x with
      | none => exact afterwards (blind.kept entered) (apart.trans given) named
      | some name' =>
        rw [later.kept (apart.trans given)] at named
        obtain rfl := Option.some.inj named
        exact inside blind' ((opened_get?_of_ne same).trans new) given

theorem append_ne_void {c : Char} (text : String) (other : c ≠ 'd') :
    text ++ String.singleton c ≠ "void" := by
  intro same
  have last := congrArg (fun t => t.toList.getLast?) same
  simp at last
  exact other last

private theorem lateName?_ne_void (late : s.lateName? arena node = some name)
    (parts : node.refs ≠ []) :
    name ≠ "void" := by
  cases node with
  | pointer target size =>
    obtain rfl := Option.some.inj late
    exact append_ne_void (c := '*') _ (by decide)
  | array member length =>
    obtain rfl := Option.some.inj late
    exact append_ne_void (c := ']') _ (by decide)
  | function ret params =>
    obtain rfl := Option.some.inj late
    decide
  | struct | union => simp [lateName?] at late
  | _ => exact absurd rfl parts

theorem Visits.entered (visits : Visits arena active s [some r] t) (unnamed : s.get? r = none)
    (found : arena.get? r = some target) (fresh : r ∉ active) :
    ∃ u, Visits arena (r :: active) (s.opened r target) target.refs u ∧
      t = u.closed arena r target := by
  cases visits with
  | skip skips later =>
    cases skips with
    | known named => exact absurd named (not_knows_of_get? unnamed)
    | dangling _ outside =>
      rw [outside] at found
      contradiction
    | again _ _ busy => contradiction
  | enter _ found' _ inner later =>
    obtain rfl := Option.some.inj (found.symm.trans found')
    cases later
    exact ⟨_, inner, rfl⟩

private theorem Visits.void_inside (inner : Visits arena [r] {} target.refs u)
    (wraps : arena.Wraps h r suffix) (present : arena.get? r = some target)
    (unsteady : ¬ arena.Steady r) (named : u.get? h = some name) : name = "void" ++ suffix := by
  by_cases pointer : ∃ q size, target = .pointer (some q) size
  · -- The first thing that is entered is what the pointer refers to; from then on, nothing is known.
    obtain ⟨q, size, rfl⟩ := pointer
    cases inner with
    | skip skips later =>
      cases later
      rw [skips.get?_eq, get?_empty] at named
      contradiction
    | @enter _ _ v _ _ other _ _ found fresh inside later =>
      cases later
      have untitled : other.title? = none := by
        by_contra titled
        exact unsteady (.inr ⟨q, size, present, other, found, titled⟩)
      rw [opened_of_untitled untitled] at inside
      have blind : Blind arena [q, r] {} r := by
        refine ⟨by simp, get?_empty, fun q' size' again => ?_⟩
        cases present.symm.trans again
        exact ⟨List.mem_cons_self, get?_empty⟩
      by_cases same : h = q
      · subst same
        obtain ⟨_, found', shape⟩ := wraps
        obtain rfl := Option.some.inj (found.symm.trans found')
        rw [(blind.kept inside).closed_get? present shape] at named
        exact (Option.some.inj named).symm
      · rw [closed_get?_of_ne same] at named
        exact inside.eq_of_blind blind wraps present get?_empty named
  · have blind : Blind arena [r] {} r := by
      refine ⟨List.mem_singleton.mpr rfl, get?_empty, fun q size found => ?_⟩
      exact absurd ⟨q, size, Option.some.inj (present.symm.trans found)⟩ pointer
    exact inner.eq_of_blind blind wraps present get?_empty named

/-- A type that is not steady is called `void` by what it leads to, if naming starts there. -/
theorem Visits.void_of_unsteady (visits : Visits arena [] {} [some r] t)
    (wraps : arena.Wraps h r suffix) (present : arena.get? r = some target)
    (back : ReflTransGen arena.Refers r h) (unsteady : ¬ arena.Steady r) :
    t.get? h = some ("void" ++ suffix) ∧ ∃ name, t.get? r = some name ∧ name ≠ "void" := by
  obtain ⟨node, found, shape⟩ := wraps
  have untitled : target.title? = none := by
    by_contra titled
    exact unsteady (.inl ⟨target, present, titled⟩)
  have reached : t.Knows h :=
    visits.knows_iff.mpr ⟨⟨node, found⟩, r, List.mem_singleton.mpr rfl, back⟩
  obtain ⟨u, inner, rfl⟩ := visits.entered get?_empty present List.not_mem_nil
  rw [opened_of_untitled untitled] at inner
  constructor
  · by_cases same : h = r
    · subst same
      obtain rfl := Option.some.inj (found.symm.trans present)
      have blind : Blind arena [h] {} h := by
        refine ⟨List.mem_singleton.mpr rfl, get?_empty, fun q size pointer => ?_⟩
        obtain rfl := Option.some.inj (found.symm.trans pointer)
        have listed := refs_of_wraps shape
        exact ⟨by simpa [Concrete.refs] using listed, get?_empty⟩
      exact (blind.kept inner).closed_get? present shape
    · obtain ⟨name, named⟩ := reached
      rw [closed_get?_of_ne same] at named ⊢
      rw [named, inner.void_inside ⟨node, found, shape⟩ present unsteady named]
  · cases late : u.lateName? arena target with
    | none => exact absurd untitled (lateName?_eq_none_iff.mp late)
    | some name =>
      refine ⟨name, closed_knows late, lateName?_ne_void late ?_⟩
      rcases back.cases_head with rfl | ⟨x, refers, _⟩
      · obtain rfl := Option.some.inj (found.symm.trans present)
        simp [refs_of_wraps shape]
      · obtain ⟨_, present', listed⟩ := Arena.refers_iff.mp refers
        obtain rfl := Option.some.inj (present.symm.trans present')
        exact List.ne_nil_of_mem listed

end Naming

namespace Inferred
variable {arena : Arena} {h r : Handle} {suffix : String}

/-- The name of one type is the name of another with something added. -/
def Composes (inferred : Inferred) (h r : Handle) (suffix : String) : Prop :=
  ∃ name, (Naming.ofInferred inferred).get? r = some name ∧
    (Naming.ofInferred inferred).get? h = some (name ++ suffix)

private theorem tied_ofInferred (inferred : Inferred) :
    Naming.Tied inferred.arena [] (.ofInferred inferred) := by
  refine (Naming.visits_ofInferred inferred).tied ⟨.nil, by simp⟩ (by simp) ?_ ?_
  · exact fun x named => absurd named Naming.not_knows_empty
  · exact fun x _ _ name _ _ named => absurd ⟨name, named⟩ Naming.not_knows_empty

/-- The name of a pointer or array is that of its target with something added, or it is that of `void`,
and the latter only if the target leads back to it and is not steady. -/
theorem composes_or_void (inferred : Inferred) (wraps : inferred.arena.Wraps h r suffix)
    (present : ∃ target, inferred.arena.get? r = some target) (reached : inferred.Reaches h) :
    inferred.Composes h r suffix ∨
      (Naming.ofInferred inferred).get? h = some ("void" ++ suffix) ∧
      ReflTransGen inferred.arena.Refers r h ∧ ¬ inferred.arena.Steady r := by
  obtain ⟨name, named⟩ := Naming.knows_ofInferred_iff.mpr reached
  cases tied_ofInferred inferred h r suffix name wraps present named with
  | composed given => exact .inl ⟨_, given, named⟩
  | loose back unsteady => exact .inr ⟨named, back, unsteady⟩
  | ahead busy => contradiction

private theorem exists_void (wraps : arena.Wraps h r suffix)
    (present : ∃ target, arena.get? r = some target)
    (back : ReflTransGen arena.Refers r h) (unsteady : ¬ arena.Steady r) :
    ∃ roots, (Inferred.mk arena roots).Reaches h ∧ ¬ (Inferred.mk arena roots).Composes h r suffix := by
  have ⟨node, found, _⟩ := wraps
  obtain ⟨target, present⟩ := present
  let roots : OrdMap TypeVar Handle := .ofList [(⟨"", []⟩, r)]
  refine ⟨roots, ⟨⟨node, found⟩, r, List.mem_singleton.mpr rfl, back⟩, ?_⟩
  rintro ⟨inner, given, composed⟩
  have visits : Naming.Visits arena [] {} [some r] (.ofInferred ⟨arena, roots⟩) :=
    Naming.visits_ofInferred ⟨arena, roots⟩
  obtain ⟨void, name, named, other⟩ := visits.void_of_unsteady wraps present back unsteady
  rw [void, Option.some.injEq, String.append_left_inj] at composed
  rw [named] at given
  exact other (composed ▸ Option.some.inj given)

/-- The name of a pointer or array is that of its target with something added, whatever the variables
are that lead to it, exactly if the target does not lead back to it or is a structure, a union or a
pointer to one. Otherwise it may also be that of `void` with the same added, but no other. -/
theorem composes_iff (wraps : arena.Wraps h r suffix)
    (present : ∃ target, arena.get? r = some target) :
    ((∀ roots, (Inferred.mk arena roots).Reaches h → (Inferred.mk arena roots).Composes h r suffix) ↔
      (ReflTransGen arena.Refers r h → arena.Steady r)) ∧
    ∀ roots, (Inferred.mk arena roots).Reaches h → (Inferred.mk arena roots).Composes h r suffix ∨
      (Naming.ofInferred ⟨arena, roots⟩).get? h = some ("void" ++ suffix) := by
  refine ⟨⟨fun always back => ?_, fun steady roots reached => ?_⟩, fun roots reached => ?_⟩
  · by_contra unsteady
    obtain ⟨roots, reached, loose⟩ := exists_void wraps present back unsteady
    exact loose (always roots reached)
  · rcases composes_or_void ⟨arena, roots⟩ wraps present reached with composed | ⟨_, back, unsteady⟩
    · exact composed
    · exact absurd (steady back) unsteady
  · exact (composes_or_void ⟨arena, roots⟩ wraps present reached).imp_right fun given => given.1

/-- A structure with a pointer to a pointer to itself. -/
def chained : Arena := ⟨#[.struct none 8 [⟨0, some 2⟩], .pointer (some 0) 8, .pointer (some 1) 8]⟩

theorem composes_iff_chained : chained.Wraps 2 1 "*" ∧ ReflTransGen chained.Refers 1 2 ∧
    ∀ roots, (Inferred.mk chained roots).Reaches 2 → (Inferred.mk chained roots).Composes 2 1 "*" := by
  have wraps : chained.Wraps 2 1 "*" := ⟨_, rfl, rfl⟩
  have step (h r : Handle) (listed : r ∈ chained.refs h) : chained.Refers h r := listed
  have back : ReflTransGen chained.Refers 1 2 :=
    .tail (.single (step 1 0 (by decide))) (step 0 2 (by decide))
  have steady : chained.Steady 1 := .inr ⟨0, 8, rfl, _, rfl, by decide⟩
  exact ⟨wraps, back, (composes_iff wraps ⟨_, rfl⟩).1.mpr fun _ => steady⟩

/-- A function that takes a pointer to itself. -/
def callback : Inferred where
  arena := ⟨#[.function none [some 1], .pointer (some 0) 8]⟩
  roots := .ofList [(⟨"f", []⟩, 0)]

/-- The pointer is called `void*`, although all that is referred to is there, and no chain of pointers
and arrays alone leads back to it. -/
theorem callback_void : (∀ r ∈ callback.roots.values, r < callback.arena.size) ∧
    (∀ h r, callback.arena.Refers h r → r < callback.arena.size) ∧
    callback.Reaches 1 ∧ callback.arena.Wraps 1 0 "*" ∧
    ¬ TransGen (fun a b => ∃ suffix, callback.arena.Wraps a b suffix) 1 1 ∧
    (Naming.ofInferred callback).get? 0 = some "code" ∧
    (Naming.ofInferred callback).get? 1 = some "void*" ∧ ¬ callback.Composes 1 0 "*" := by
  have inside (h : Handle) (r : Handle) (refers : callback.arena.Refers h r) :
      r < callback.arena.size := by
    obtain ⟨node, found, _⟩ := Arena.refers_iff.mp refers
    have bound : h < 2 := Arena.lt_size_iff.mpr ⟨node, found⟩
    have all : ∀ h < 2, ∀ r ∈ callback.arena.refs h, r < callback.arena.size := by decide
    exact all h bound r refers
  have step : callback.arena.Refers 0 1 := (by decide : 1 ∈ callback.arena.refs 0)
  have names : (Naming.ofInferred callback).get? 0 = some "code" ∧
      (Naming.ofInferred callback).get? 1 = some "void*" := by
    decide +kernel
  refine ⟨by decide, inside, ⟨⟨_, rfl⟩, 0, by decide, .single step⟩, ⟨_, rfl, rfl⟩, ?_,
    names.1, names.2, ?_⟩
  · intro cycle
    obtain ⟨b, ⟨_, _, found, wraps⟩, rest⟩ := TransGen.head'_iff.mp cycle
    cases found
    cases wraps
    rcases rest.cases_head with same | ⟨_, ⟨_, _, found, wraps⟩, _⟩
    · contradiction
    · cases found
      contradiction
  · rintro ⟨name, given, composed⟩
    rw [names.1] at given
    rw [names.2] at composed
    cases given
    contradiction

end Inferred
end TypeRecovery
