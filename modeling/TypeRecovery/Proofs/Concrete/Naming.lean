import Mathlib.Data.List.Nodup
import Mathlib.Logic.Relation
import TypeRecovery.Concrete.Naming
import TypeRecovery.Proofs.Concrete.Arenas
import TypeRecovery.Proofs.Ordered
import TypeRecovery.Proofs.Text

/-! How types come by their names. Naming goes depth first; a type that is met while it is still being
named is not entered again. The steps of naming are told by a relation that knows which types those
are, and what names mean is proved along its rules. -/
namespace TypeRecovery
open Relation

/-- A structure or union, with its own name if it has one. -/
def Concrete.title? : Concrete → Option (Option String)
  | struct name _ _ => some name
  | union name _ => some name
  | _ => none

namespace Arena

def Refers (arena : Arena) (h r : Handle) : Prop := r ∈ arena.refs h

def Aggregate (arena : Arena) (h : Handle) : Prop :=
  ∃ node, arena.get? h = some node ∧ node.title? ≠ none

theorem refers_iff {arena : Arena} {h r : Handle} :
    arena.Refers h r ↔ ∃ node, arena.get? h = some node ∧ some r ∈ node.refs := by
  unfold Refers refs
  cases arena.get? h <;> simp

end Arena

namespace Naming
variable {arena : Arena} {active idle : List Handle} {s t u : Naming} {h x : Handle}
  {node : Concrete} {refs more : List (Option Handle)} {name : String}

def Knows (s : Naming) (h : Handle) : Prop := ∃ name, s.get? h = some name

/-- What a reference is called at a stage of naming, also if it is not named yet. -/
def label (arena : Arena) (s : Naming) (absent : String) : Option Handle → String
  | none => absent
  | some h =>
    match s.get? h, arena.get? h with
    | some name, _ => name
    | none, none => "undefined"
    | none, some node => s.provisional node

/-- The name of a node whose references were visited. Structures and unions have been named before. -/
def lateName? (arena : Arena) (s : Naming) : Concrete → Option String
  | .pointer target _ => some (s.label arena "void" target ++ "*")
  | .array member length => some (s.label arena "undefined" member ++ "[" ++ Nat.repr length ++ "]")
  | .function _ _ => some "code"
  | .struct _ _ _ | .union _ _ => none
  | scalar => some (scalar.scalarName?.getD scalar.kind)

/-- Entering a node: structures and unions get their names. -/
def opened (s : Naming) (h : Handle) (node : Concrete) : Naming :=
  match node.title? with
  | some own => (s.pick own).2.record h (s.pick own).1
  | none => s

/-- Leaving a node: all others get their names. -/
def closed (arena : Arena) (s : Naming) (h : Handle) (node : Concrete) : Naming :=
  match s.lateName? arena node with
  | some name => s.record h name
  | none => s

/-- References that are passed by: those that are absent, have a name, lead nowhere, or lead to one of
the `active` types, which are being named. -/
inductive Skips (arena : Arena) (active : List Handle) (s : Naming) :
    Option Handle → Naming → Prop where
  | absent : Skips arena active s none s
  | known {h : Handle} (named : s.Knows h) : Skips arena active s (some h) s
  | dangling {h : Handle} (unnamed : s.get? h = none) (outside : arena.get? h = none) :
    Skips arena active s (some h) { s with notices := s.notices ++ [.danglingConcrete h] }
  | again {h : Handle} {node : Concrete} (unnamed : s.get? h = none)
    (found : arena.get? h = some node) (busy : h ∈ active) : Skips arena active s (some h) s

/-- Naming what references lead to, one after the other, while the `active` types are being named. -/
inductive Visits (arena : Arena) :
    List Handle → Naming → List (Option Handle) → Naming → Prop where
  | done {active : List Handle} {s : Naming} : Visits arena active s [] s
  | skip {active : List Handle} {s t u : Naming} {ref : Option Handle}
    {rest : List (Option Handle)} (skips : Skips arena active s ref t)
    (later : Visits arena active t rest u) : Visits arena active s (ref :: rest) u
  | enter {active : List Handle} {s t u : Naming} {h : Handle} {node : Concrete}
    {rest : List (Option Handle)} (unnamed : s.get? h = none) (found : arena.get? h = some node)
    (fresh : h ∉ active) (inner : Visits arena (h :: active) (s.opened h node) node.refs t)
    (later : Visits arena active (t.closed arena h node) rest u) :
    Visits arena active s (some h :: rest) u

theorem not_knows_of_get? (unnamed : s.get? x = none) : ¬ s.Knows x := by
  rintro ⟨name, named⟩
  rw [unnamed] at named
  contradiction

theorem record_get? : (s.record h name).get? x = if x = h then some name else s.get? x :=
  OrdMap.get?_insert _ _ _ _

theorem pick_get? (own : Option String) : (s.pick own).2.get? x = s.get? x := by
  cases own <;> rfl

theorem opened_get?_of_ne (apart : x ≠ h) : (s.opened h node).get? x = s.get? x := by
  unfold opened
  split
  next => rw [record_get?, if_neg apart, pick_get?]
  next => rfl

theorem closed_get?_of_ne (apart : x ≠ h) : (s.closed arena h node).get? x = s.get? x := by
  unfold closed
  split
  next => rw [record_get?, if_neg apart]
  next => rfl

theorem opened_kept (unnamed : s.get? h = none) (named : s.get? x = some name) :
    (s.opened h node).get? x = some name := by
  rw [opened_get?_of_ne, named]
  rintro rfl
  rw [unnamed] at named
  contradiction

theorem opened_knows {own : Option String} (titled : node.title? = some own) :
    (s.opened h node).get? h = some (s.pick own).1 := by
  rw [opened, titled]
  exact (record_get?).trans (if_pos rfl)

theorem opened_of_untitled (untitled : node.title? = none) : s.opened h node = s := by
  rw [opened, untitled]

theorem lateName?_eq_none_iff : s.lateName? arena node = none ↔ node.title? ≠ none := by
  cases node <;> simp [lateName?, Concrete.title?]

theorem closed_knows (late : s.lateName? arena node = some name) :
    (s.closed arena h node).get? h = some name := by
  rw [closed, late]
  exact (record_get?).trans (if_pos rfl)

private theorem closed_of_titled (titled : node.title? ≠ none) : s.closed arena h node = s := by
  rw [closed, lateName?_eq_none_iff.mpr titled]

theorem closed_kept (unnamed : node.title? = none → s.get? h = none)
    (named : s.get? x = some name) :
    (s.closed arena h node).get? x = some name := by
  by_cases titled : node.title? = none
  · rw [closed_get?_of_ne, named]
    rintro rfl
    rw [unnamed titled] at named
    contradiction
  · rw [closed_of_titled titled, named]

theorem label_of_named {absent : String} (named : s.get? h = some name) :
    s.label arena absent (some h) = name := by
  simp only [label, named]

private theorem label_of_outside {absent : String} (unnamed : s.get? h = none)
    (outside : arena.get? h = none) : s.label arena absent (some h) = "undefined" := by
  simp only [label, unnamed, outside]

theorem label_of_unnamed {absent : String} (unnamed : s.get? h = none)
    (found : arena.get? h = some node) : s.label arena absent (some h) = s.provisional node := by
  simp only [label, unnamed, found]

theorem Skips.get?_eq {ref : Option Handle} (skips : Skips arena active s ref t) :
    t.get? x = s.get? x := by
  cases skips <;> rfl

private theorem Skips.knows (skips : Skips arena active s (some h) t)
    (found : arena.get? h = some node) :
    t.Knows h ∨ h ∈ active := by
  cases skips with
  | known named => exact .inl named
  | dangling _ outside =>
    rw [outside] at found
    contradiction
  | again _ _ busy => exact .inr busy

namespace Visits

theorem append (first : Visits arena active s refs t) (second : Visits arena active t more u) :
    Visits arena active s (refs ++ more) u := by
  induction first with
  | done => exact second
  | skip skips _ ih => exact .skip skips (ih second)
  | enter unnamed found fresh inner _ _ ih => exact .enter unnamed found fresh inner (ih second)

theorem untouched (visits : Visits arena active s refs t) (busy : x ∈ active) :
    t.get? x = s.get? x := by
  induction visits with
  | done => rfl
  | skip skips _ ih => rw [ih busy, skips.get?_eq]
  | @enter active s t u h node rest _ _ fresh _ _ inside later =>
    have apart : x ≠ h := fun same => fresh (same ▸ busy)
    rw [later busy, closed_get?_of_ne apart, inside (List.mem_cons_of_mem h busy),
      opened_get?_of_ne apart]

theorem unnamed_inside (inner : Visits arena (h :: active) (s.opened h node) refs t)
    (unnamed : s.get? h = none) (untitled : node.title? = none) : t.get? h = none := by
  rw [inner.untouched List.mem_cons_self, opened_of_untitled untitled, unnamed]

theorem kept (visits : Visits arena active s refs t) (named : s.get? x = some name) :
    t.get? x = some name := by
  induction visits with
  | done => exact named
  | skip skips _ ih => exact ih (skips.get?_eq.trans named)
  | enter unnamed _ _ inner _ inside later =>
    exact later (closed_kept (inner.unnamed_inside unnamed) (inside (opened_kept unnamed named)))

theorem kept_knows (visits : Visits arena active s refs t) (named : s.Knows x) : t.Knows x := by
  obtain ⟨name, given⟩ := named
  exact ⟨name, visits.kept given⟩

theorem knows_of_titled (inner : Visits arena active (s.opened h node) refs t)
    (titled : node.title? ≠ none) : t.Knows h := by
  obtain ⟨own, given⟩ := Option.ne_none_iff_exists'.mp titled
  exact inner.kept_knows ⟨_, opened_knows given⟩

/-- Names go to nodes of the arena that the references lead to, and to no others. -/
theorem sound (visits : Visits arena active s refs t) (named : t.Knows x) :
    s.Knows x ∨ (∃ node, arena.get? x = some node) ∧
      ∃ r, some r ∈ refs ∧ ReflTransGen arena.Refers r x := by
  induction visits with
  | done => exact .inl named
  | skip skips _ ih =>
    rcases ih named with before | ⟨found, r, listed, path⟩
    · rw [Knows, skips.get?_eq] at before
      exact .inl before
    · exact .inr ⟨found, r, List.mem_cons_of_mem _ listed, path⟩
  | @enter active s t u h node rest _ found _ _ _ inside later =>
    by_cases same : x = h
    · subst same
      exact .inr ⟨⟨node, found⟩, x, List.mem_cons_self, .refl⟩
    · rcases later named with before | ⟨present, r, listed, path⟩
      · rw [Knows, closed_get?_of_ne same] at before
        rcases inside before with early | ⟨present, r, listed, path⟩
        · rw [Knows, opened_get?_of_ne same] at early
          exact .inl early
        · exact .inr ⟨present, h, List.mem_cons_self,
            .head (Arena.refers_iff.mpr ⟨node, found, listed⟩) path⟩
      · exact .inr ⟨present, r, List.mem_cons_of_mem _ listed, path⟩

end Visits

/-- All that named nodes refer to is named or being named, except where a node is itself being
named. -/
def Swept (arena : Arena) (active : List Handle) (s : Naming) : Prop :=
  ∀ x, s.Knows x → x ∉ active → ∀ r node, arena.Refers x r → arena.get? r = some node →
    s.Knows r ∨ r ∈ active

theorem Swept.opened (swept : Swept arena active s) :
    Swept arena (h :: active) (s.opened h node) := by
  intro x named idle r other refers found
  rw [List.mem_cons, not_or] at idle
  rw [Knows, opened_get?_of_ne idle.1] at named
  by_cases same : r = h
  · exact .inr (List.mem_cons.mpr (.inl same))
  · rw [Knows, opened_get?_of_ne same]
    exact (swept x named idle.2 r other refers found).imp_right (List.mem_cons_of_mem h)

private theorem knows_closed (titled : node.title? ≠ none → s.Knows h) :
    (s.closed arena h node).Knows h := by
  cases late : s.lateName? arena node with
  | some name => exact ⟨name, closed_knows late⟩
  | none =>
    have own := lateName?_eq_none_iff.mp late
    rw [closed_of_titled own]
    exact titled own

theorem Swept.closed (swept : Swept arena (h :: active) t) (found : arena.get? h = some node)
    (titled : node.title? ≠ none → t.Knows h)
    (parts : ∀ r other, some r ∈ node.refs → arena.get? r = some other → t.Knows r ∨ r ∈ h :: active) :
    Swept arena active (t.closed arena h node) := by
  have self : (t.closed arena h node).Knows h := knows_closed titled
  have settled (r : Handle) (given : t.Knows r ∨ r ∈ h :: active) :
      (t.closed arena h node).Knows r ∨ r ∈ active := by
    by_cases same : r = h
    · exact .inl (same ▸ self)
    · rw [Knows, closed_get?_of_ne same]
      exact given.imp_right fun busy => (List.mem_cons.mp busy).resolve_left same
  intro x named idle r other refers present
  apply settled
  by_cases same : x = h
  · subst same
    obtain ⟨_, found', listed⟩ := Arena.refers_iff.mp refers
    obtain rfl := Option.some.inj (found.symm.trans found')
    exact parts r other listed present
  · rw [Knows, closed_get?_of_ne same] at named
    have apart : x ∉ h :: active := List.not_mem_cons_of_ne_of_not_mem same idle
    exact swept x named apart r other refers present

/-- Visiting leaves nothing behind: what the references lead to in one step is named, or is being
named, and the same holds for all that was named on the way. -/
theorem Visits.complete (visits : Visits arena active s refs t) (swept : Swept arena active s) :
    Swept arena active t ∧ ∀ r other, some r ∈ refs → arena.get? r = some other →
      t.Knows r ∨ r ∈ active := by
  induction visits with
  | done => exact ⟨swept, by simp⟩
  | @skip active s t u ref rest skips later ih =>
    have swept' : Swept arena active t := by
      intro x named
      simp only [Knows, skips.get?_eq] at named ⊢
      exact swept x named
    obtain ⟨after, covered⟩ := ih swept'
    refine ⟨after, fun r other listed found => ?_⟩
    rcases List.mem_cons.mp listed with rfl | behind
    · exact (skips.knows found).imp_left later.kept_knows
    · exact covered r other behind found
  | @enter active s t u h node rest _ found _ inner later inside afterwards =>
    obtain ⟨nested, parts⟩ := inside swept.opened
    obtain ⟨after, covered⟩ := afterwards (nested.closed found inner.knows_of_titled parts)
    refine ⟨after, fun r other listed present => ?_⟩
    rcases List.mem_cons.mp listed with same | behind
    · obtain rfl := Option.some.inj same
      exact .inl (later.kept_knows (knows_closed inner.knows_of_titled))
    · exact covered r other behind present

def Untitled (arena : Arena) (h : Handle) : Prop :=
  ∃ node, arena.get? h = some node ∧ node.title? = some none

/-- Structures and unions without names of their own have different numbers that were issued. -/
structure Numbered (arena : Arena) (s : Naming) : Prop where
  issued : ∀ h name, Untitled arena h → s.get? h = some name →
    ∃ k < s.issued, name = "t" ++ Nat.repr (k + 1)
  distinct : ∀ h h' name, Untitled arena h → Untitled arena h' → s.get? h = some name →
    s.get? h' = some name → h = h'

private theorem eq_of_numbered_eq {k l : Nat}
    (same : "t" ++ Nat.repr k = "t" ++ Nat.repr l) : k = l := by
  have digits := congrArg String.toList same
  rw [String.toList_append, String.toList_append, List.append_cancel_left_eq] at digits
  have read := congrArg Text.digits? digits
  rw [Text.digits?_repr, Text.digits?_repr] at read
  exact Option.some.inj read

theorem Numbered.of_get?_eq (numbered : Numbered arena s) (issued : s.issued ≤ t.issued)
    (same : ∀ h, Untitled arena h → t.get? h = s.get? h) : Numbered arena t where
  issued h name own named := by
    obtain ⟨k, bound, written⟩ := numbered.issued h name own (same h own ▸ named)
    exact ⟨k, by omega, written⟩
  distinct h h' name own own' named named' :=
    numbered.distinct h h' name own own' (same h own ▸ named) (same h' own' ▸ named')

private theorem ne_of_untitled (found : arena.get? h = some node) (titled : node.title? ≠ some none)
    (own : Untitled arena x) : x ≠ h := by
  rintro rfl
  obtain ⟨_, found', blank⟩ := own
  obtain rfl := Option.some.inj (found.symm.trans found')
  exact titled blank

theorem Numbered.opened (numbered : Numbered arena s) (found : arena.get? h = some node) :
    Numbered arena (s.opened h node) := by
  by_cases blank : node.title? = some none
  · -- The number that is issued now is larger than all before.
    have next : (s.opened h node).issued = s.issued + 1 := by rw [Naming.opened, blank]; rfl
    have named : (s.opened h node).get? h = some ("t" ++ Nat.repr (s.issued + 1)) := opened_knows blank
    have new {x : Handle} {name : String} (apart : x ≠ h) (own : Untitled arena x)
        (given : (s.opened h node).get? x = some name) : name ≠ "t" ++ Nat.repr (s.issued + 1) := by
      rw [opened_get?_of_ne apart] at given
      obtain ⟨k, bound, rfl⟩ := numbered.issued x name own given
      intro same
      have := eq_of_numbered_eq same
      omega
    refine ⟨fun x name own given => ?_, fun x x' name own own' given given' => ?_⟩
    · by_cases here : x = h
      · subst here
        exact ⟨s.issued, by omega, Option.some.inj (given.symm.trans named)⟩
      · rw [opened_get?_of_ne here] at given
        obtain ⟨k, bound, written⟩ := numbered.issued x name own given
        exact ⟨k, by omega, written⟩
    · by_cases here : x = h
      · subst here
        by_contra apart
        exact new (Ne.symm apart) own' given' (Option.some.inj (given.symm.trans named))
      · by_cases there : x' = h
        · subst there
          exact absurd (Option.some.inj (given'.symm.trans named)) (new here own given)
        · rw [opened_get?_of_ne here] at given
          rw [opened_get?_of_ne there] at given'
          exact numbered.distinct x x' name own own' given given'
  · have kept : (s.opened h node).issued = s.issued := by
      unfold Naming.opened
      split
      next own titled =>
        cases own with
        | none => exact absurd titled blank
        | some own => rfl
      next => rfl
    exact numbered.of_get?_eq kept.ge fun x own =>
      opened_get?_of_ne (ne_of_untitled found blank own)

theorem Numbered.closed (numbered : Numbered arena s) (found : arena.get? h = some node) :
    Numbered arena (s.closed arena h node) := by
  cases titled : node.title? with
  | some own => rwa [closed_of_titled (by simp [titled])]
  | none =>
    have kept : (s.closed arena h node).issued = s.issued := by
      unfold Naming.closed
      split <;> rfl
    exact numbered.of_get?_eq kept.ge fun x own =>
      closed_get?_of_ne (ne_of_untitled found (by simp [titled]) own)

theorem Visits.numbered (visits : Visits arena active s refs t) (numbered : Numbered arena s) :
    Numbered arena t := by
  induction visits with
  | done => exact numbered
  | skip skips _ ih =>
    apply ih
    cases skips <;> exact ⟨numbered.issued, numbered.distinct⟩
  | enter _ found _ _ _ inside later => exact later ((inside (numbered.opened found)).closed found)

section
variable {go : Naming → Handle → String × Naming}

/-- The types that are not being named, each once. -/
structure Idle (arena : Arena) (active idle : List Handle) : Prop where
  distinct : idle.Nodup
  mem_iff : ∀ h, h ∈ idle ↔ h < arena.size ∧ h ∉ active

theorem Idle.erase (given : Idle arena active idle) : Idle arena (h :: active) (idle.erase h) where
  distinct := given.distinct.erase h
  mem_iff x := by
    rw [given.distinct.mem_erase_iff, given.mem_iff, List.mem_cons, not_or]
    exact and_left_comm

/-- Work that names what a handle leads to, and returns what the handle is called then. -/
def Follows (arena : Arena) (active : List Handle)
    (go : Naming → Handle → String × Naming) : Prop :=
  ∀ s h absent, Visits arena active s [some h] (go s h).2 ∧
    (go s h).1 = (go s h).2.label arena absent (some h)

theorem Follows.visitRef (follows : Follows arena active go) (absent : String) (s : Naming)
    (ref : Option Handle) : Visits arena active s [ref] (visitRef go absent s ref).2 ∧
      (visitRef go absent s ref).1 = (visitRef go absent s ref).2.label arena absent ref := by
  cases ref with
  | none => exact ⟨.skip .absent .done, rfl⟩
  | some h => exact follows s h absent

theorem Follows.visitAll (follows : Follows arena active go) (s : Naming)
    (refs : List (Option Handle)) : Visits arena active s refs (visitAll go s refs) := by
  induction refs generalizing s with
  | nil => exact .done
  | cons ref rest ih => exact (follows.visitRef "undefined" s ref).1.append (ih _)

private theorem record_eq_closed {name : String} (late : t.lateName? arena node = some name) :
    t.record h name = t.closed arena h node := by
  rw [closed, late]

theorem Follows.visitNode (follows : Follows arena (h :: active) go) (s : Naming)
    (node : Concrete) :
    ∃ t, Visits arena (h :: active) (s.opened h node) node.refs t ∧
      (visitNode go s h node).2 = t.closed arena h node ∧
      (t.closed arena h node).get? h = some (visitNode go s h node).1 := by
  cases node with
  | pointer target size =>
    obtain ⟨visits, named⟩ := follows.visitRef "void" s target
    have late := congrArg (fun name => some (name ++ "*")) named.symm
    exact ⟨_, visits, record_eq_closed late, closed_knows late⟩
  | array member length =>
    obtain ⟨visits, named⟩ := follows.visitRef "undefined" s member
    have late := congrArg (fun name => some (name ++ "[" ++ Nat.repr length ++ "]")) named.symm
    exact ⟨_, visits, record_eq_closed late, closed_knows late⟩
  | function ret params =>
    exact ⟨_, follows.visitAll s (ret :: params), record_eq_closed rfl, closed_knows rfl⟩
  | struct own size fields =>
    have visits := follows.visitAll (s.opened h (.struct own size fields)) (fields.map Field.type)
    exact ⟨_, visits, rfl, visits.kept (opened_knows rfl)⟩
  | union own members =>
    have visits := follows.visitAll (s.opened h (.union own members)) members
    exact ⟨_, visits, rfl, visits.kept (opened_knows rfl)⟩
  | _ => exact ⟨s, .done, record_eq_closed rfl, closed_knows rfl⟩

end

private theorem follows_visit (given : Idle arena active idle) :
    Follows arena active (visit arena idle) := by
  intro s h absent
  fun_induction visit arena idle s h generalizing active with
  | case1 idle s h name named =>
    exact ⟨.skip (.known ⟨name, named⟩) .done, (label_of_named named).symm⟩
  | case2 idle s h unnamed outside =>
    refine ⟨.skip (.dangling unnamed outside) .done, ?_⟩
    rw [label_of_outside _ outside]
    exact unnamed
  | case3 idle s h unnamed node found inside ih =>
    have fresh : h ∉ active := ((given.mem_iff h).mp inside).2
    have follows : Follows arena (h :: active) (visit arena (idle.erase h)) :=
      fun s h absent => ih s h given.erase
    obtain ⟨t, inner, after, named⟩ := follows.visitNode s node
    rw [after]
    exact ⟨.enter unnamed found fresh inner .done, (label_of_named named).symm⟩
  | case4 idle s h unnamed node found outside =>
    have bound : h < arena.size := Arena.lt_size_iff.mpr ⟨node, found⟩
    have busy : h ∈ active := by
      by_contra fresh
      exact outside ((given.mem_iff h).mpr ⟨bound, fresh⟩)
    exact ⟨.skip (.again unnamed found busy) .done, (label_of_unnamed unnamed found).symm⟩

private theorem visits_foldl (given : Idle arena active idle) (hs : List Handle) (s : Naming) :
    Visits arena active s (hs.map some) (hs.foldl (fun s h => (visit arena idle s h).2) s) := by
  induction hs generalizing s with
  | nil => exact .done
  | cons h hs ih => exact (follows_visit given s h "").1.append (ih _)

private theorem idle_range : Idle arena [] (List.range arena.size) where
  distinct := List.nodup_range
  mem_iff h := by simp

/-- All that is named for inferred types is named in one visit, from nothing. -/
theorem visits_ofInferred (inferred : Inferred) :
    Visits inferred.arena [] {} (inferred.roots.values.map some) (ofInferred inferred) :=
  visits_foldl idle_range inferred.roots.values {}

theorem get?_empty : ({} : Naming).get? h = none := OrdMap.get?_empty h

theorem not_knows_empty : ¬ ({} : Naming).Knows h := not_knows_of_get? get?_empty

theorem numbered_empty : Numbered arena {} where
  issued _ name _ named := absurd ⟨name, named⟩ not_knows_empty
  distinct _ _ name _ _ named := absurd ⟨name, named⟩ not_knows_empty

/-- From nothing, and with nothing being named, names go to exactly what the references lead to. -/
theorem Visits.knows_iff (visits : Visits arena [] {} refs t) :
    t.Knows x ↔ (∃ node, arena.get? x = some node) ∧
      ∃ r, some r ∈ refs ∧ ReflTransGen arena.Refers r x := by
  constructor
  · exact fun named => (visits.sound named).resolve_left not_knows_empty
  · intro given
    obtain ⟨⟨node, found⟩, r, listed, path⟩ := given
    obtain ⟨swept, covered⟩ := visits.complete fun x named => absurd named not_knows_empty
    -- All but the last node of the path refer to something, so they are in the arena.
    induction path generalizing node with
    | refl => exact (covered r node listed found).resolve_right List.not_mem_nil
    | @tail y x _ refers ih =>
      obtain ⟨other, present, _⟩ := Arena.refers_iff.mp refers
      exact (swept y (ih other present) List.not_mem_nil x node refers found).resolve_right
        List.not_mem_nil

end Naming
end TypeRecovery
