import Mathlib.Data.List.Nodup
import TypeRecovery.Proofs.Ordered
import TypeRecovery.Proofs.Prototype.Entering

/-! The recorded graph is a copy of the concrete one. References stand at sites: a root, or a part
of a handle. Each of them lands on a type that the module had before or on a new node, and new
nodes are made once for a handle and once for a site that refers to nothing known. A log of what
the new identifiers were taken for carries the proof: it has no repetitions, and the place of an
entry in it is the identifier. -/
namespace TypeRecovery

/-- What a new type node is made for: a handle, or a reference to nothing known. -/
inductive Site where
  | node (h : Handle)
  | part (h : Handle) (index : Nat)
  | root (v : TypeVar)
deriving DecidableEq

/-- The type that a reference becomes: one of the table, or the new one of a site. -/
inductive Landing where
  | old (id : NodeId)
  | new (site : Site)
deriving DecidableEq

def Landing.id (place : Site → NodeId) : Landing → NodeId
  | old id => id
  | new site => place site

namespace Arena
variable (arena : Arena) (known : TypeTable)

/-- A sealed type of the table stays what it is, and so does a pointer to it. Any other handle has
one new node, and a reference to nothing or to a sealed type that the table lacks has its own. -/
def land (site : Site) : Option Handle → Landing
  | none => .new site
  | some h =>
    match arena.get? h with
    | some (.sealed origin) => if known.contains origin then .old origin else .new site
    | some (.pointer target _) =>
      match Recorder.origin? arena known target with
      | some origin => .old origin
      | none => .new (.node h)
    | _ => .new (.node h)

end Arena

namespace Inferred
variable (inferred : Inferred) (known : TypeTable)

/-- The references of a graph: the roots, and those of the handles that get a node of their own. -/
inductive Refers : Site → Option Handle → Prop where
  | root {v : TypeVar} {h : Handle} (given : inferred.roots.get? v = some h) :
    Refers (.root v) (some h)
  | part {site : Site} {ref : Option Handle} {h : Handle} {node : Concrete} {index : Nat}
    {part : Option Handle} (above : Refers site ref)
    (lands : inferred.arena.land known site ref = .new (.node h))
    (found : inferred.arena.get? h = some node) (inside : node.refs[index]? = some part) :
    Refers (.part h index) part

def Needs (site : Site) : Prop :=
  ∃ origin ref, inferred.Refers known origin ref ∧
    inferred.arena.land known origin ref = .new site

def parts (place : Site → NodeId) (h : Handle) (node : Concrete) : List NodeId :=
  node.refs.mapIdx fun index ref => (inferred.arena.land known (.part h index) ref).id place

def prototypes (place : Site → NodeId) (functions : OrdMap String NodeId)
    (roots : List (TypeVar × Handle)) : List (NodeId × NodeId) :=
  roots.filterMap fun root => (functions.get? root.1.text).map fun function =>
    (function, (inferred.arena.land known (.root root.1) (some root.2)).id place)

private theorem prototypes_cons (place : Site → NodeId) (functions : OrdMap String NodeId)
    (v : TypeVar)
    (h : Handle) (rest : List (TypeVar × Handle)) :
    inferred.prototypes known place functions ((v, h) :: rest) =
      ((functions.get? v.text).map fun function =>
        (function, (inferred.arena.land known (.root v) (some h)).id place)).toList ++
      inferred.prototypes known place functions rest := by
  simp only [prototypes, List.filterMap_cons]
  cases functions.get? v.text with
  | none => rfl
  | some function => rfl

/-- The table has at its place what a site is to become. -/
def Fills (place : Site → NodeId) (types : TypeTable) : Site → Prop
  | .node h => ∃ node copy, inferred.arena.get? h = some node ∧
      node.Mirrors (inferred.parts known place h node) copy ∧
      types.get? (place (.node h)) = some copy
  | site => types.get? (place site) = some (.unknown 0)

end Inferred

def Site.placeIn (base : Nat) (log : List Site) (site : Site) : NodeId := ⟨base + log.idxOf site⟩

namespace Site
variable {base : Nat} {log new : List Site} {site other : Site}

private theorem placeIn_append (inside : site ∈ log) :
    placeIn base (log ++ new) site = placeIn base log site := by
  rw [placeIn, placeIn, List.idxOf_append_of_mem inside]

private theorem placeIn_next (outside : site ∉ log) :
    placeIn base (log ++ site :: new) site = ⟨base + log.length⟩ := by
  rw [placeIn, List.idxOf_append_of_notMem outside, List.idxOf_cons_self, Nat.add_zero]

private theorem placeIn_lt (inside : site ∈ log) :
    (placeIn base log site).value < base + log.length :=
  Nat.add_lt_add_left (List.idxOf_lt_length_iff.mpr inside) base

theorem placeIn_injective (inside : site ∈ log)
    (same : placeIn base log site = placeIn base log other) :
    site = other := by
  have equal : log.idxOf site = log.idxOf other := by
    simpa only [placeIn, NodeId.mk.injEq, Nat.add_left_cancel_iff] using same
  exact (List.idxOf_inj inside).mp equal

private theorem exists_placeIn (distinct : log.Nodup) {id : NodeId} (above : base ≤ id.value)
    (below : id.value < base + log.length) : ∃ site ∈ log, id = placeIn base log site := by
  have bound : id.value - base < log.length := by omega
  refine ⟨log[id.value - base], List.getElem_mem bound, ?_⟩
  rw [placeIn, distinct.idxOf_getElem, Nat.add_sub_cancel' above]

end Site

/-- The site of the landing, if it is a new one, is in the log. -/
def Landing.Settled (log : List Site) (landing : Landing) : Prop :=
  ∀ site, landing = .new site → site ∈ log

theorem Landing.Settled.append {log new : List Site} {landing : Landing}
    (settled : landing.Settled log) : landing.Settled (log ++ new) := by
  intro site here
  exact List.mem_append_left new (settled site here)

private theorem Landing.Settled.id_append {base : Nat} {log new : List Site} {landing : Landing}
    (settled : landing.Settled log) :
    landing.id (Site.placeIn base (log ++ new)) = landing.id (Site.placeIn base log) := by
  cases landing with
  | old => rfl
  | new site => exact Site.placeIn_append (settled site rfl)

/-- The reference at the site can be recorded next: its handle has been entered. -/
def Site.Ready (log : List Site) : Site → Prop
  | .node _ => False
  | .part h index => .node h ∈ log ∧ .part h index ∉ log
  | .root v => .root v ∉ log

theorem Site.Ready.fresh {log : List Site} {site : Site} (ready : site.Ready log) : site ∉ log := by
  cases site with
  | node h => exact ready.elim
  | part h index => exact ready.2
  | root v => exact ready

namespace Recording
variable (inferred : Inferred) (known : TypeTable) (base : Nat)

def Closed (log : List Site) (h : Handle) : Prop :=
  ∀ node index ref, inferred.arena.get? h = some node → node.refs[index]? = some ref →
    (inferred.arena.land known (.part h index) ref).Settled log

/-- What holds of a recording between any two steps: the log accounts for the identifiers taken,
and every image is what a reference to its handle becomes. -/
structure Logged (log : List Site) (s : Recording) : Prop where
  counted : s.supply.next = base + log.length
  distinct : log.Nodup
  needed : ∀ site ∈ log, inferred.Needs known site
  kept : ∀ id, id.value < base → s.target.types.get? id = known.get? id
  bounded : ∀ id, s.target.types.contains id → id.value < base + log.length
  imaged : ∀ h id, s.images.get? h = some id → ∀ site,
    (inferred.arena.land known site (some h)).Settled log ∧
      (inferred.arena.land known site (some h)).id (Site.placeIn base log) = id
  entered : ∀ h, .node h ∈ log → s.images.get? h ≠ none
  owned : ∀ h index, .part h index ∈ log → .node h ∈ log

/-- Work that has extended the log by `new`: it left the types that it found as they were, filled
all the places that it took, and took them for the given sites and for what they lead to. -/
structure Wrote (sites : Site → Prop) (log : List Site) (s : Recording) (new : List Site)
    (t : Recording) : Prop where
  logged : Logged inferred known base (log ++ new) t
  kept : ∀ id, id.value < base + log.length → t.target.types.get? id = s.target.types.get? id
  filled : ∀ site ∈ new,
    inferred.Fills known (Site.placeIn base (log ++ new)) t.target.types site
  closed : ∀ h, .node h ∈ new → Closed inferred known (log ++ new) h
  within : ∀ site ∈ new, sites site ∨
    ∃ h, .node h ∈ new ∧ (site = .node h ∨ ∃ index, site = .part h index)
  only : t.target = { s.target with types := t.target.types }

variable {inferred known base} {log new more : List Site} {s t u : Recording} {h : Handle}

private theorem parts_append {node : Concrete} (closed : Closed inferred known log h)
    (found : inferred.arena.get? h = some node) :
    inferred.parts known (Site.placeIn base (log ++ new)) h node =
      inferred.parts known (Site.placeIn base log) h node := by
  apply List.ext_getElem?
  intro index
  simp only [Inferred.parts, List.getElem?_mapIdx]
  cases inside : node.refs[index]? with
  | none => rfl
  | some ref =>
    simp only [Option.map_some, Option.some.injEq]
    exact (closed node index ref found inside).id_append

private theorem fills_append {types types' : TypeTable} {site : Site} (inside : site ∈ log)
    (kept : ∀ id, id.value < base + log.length → types'.get? id = types.get? id)
    (closed : ∀ h, site = .node h → Closed inferred known log h)
    (filled : inferred.Fills known (Site.placeIn base log) types site) :
    inferred.Fills known (Site.placeIn base (log ++ new)) types' site := by
  have unchanged : types'.get? (Site.placeIn base (log ++ new) site) =
      types.get? (Site.placeIn base log site) := by
    rw [Site.placeIn_append inside, kept _ (Site.placeIn_lt inside)]
  cases site with
  | node h =>
    obtain ⟨node, copy, found, mirrors, placed⟩ := filled
    refine ⟨node, copy, found, ?_, unchanged.trans placed⟩
    rwa [parts_append (closed h rfl) found]
  | part h index => exact unchanged.trans filled
  | root v => exact unchanged.trans filled

private theorem fills_insert {place : Site → NodeId} {types : TypeTable} {site : Site} {id : NodeId}
    {node : TypeNode} (apart : place site ≠ id) (filled : inferred.Fills known place types site) :
    inferred.Fills known place (types.insert id node) site := by
  have unchanged := OrdMap.get?_insert_of_ne types node apart
  cases site with
  | node h =>
    obtain ⟨concrete, copy, found, mirrors, placed⟩ := filled
    exact ⟨concrete, copy, found, mirrors, unchanged.trans placed⟩
  | part h index => exact unchanged.trans filled
  | root v => exact unchanged.trans filled

theorem Wrote.nil (sites : Site → Prop) (logged : Logged inferred known base log s) :
    Wrote inferred known base sites log s [] s where
  logged := by rwa [List.append_nil]
  kept _ _ := rfl
  filled _ inside := absurd inside List.not_mem_nil
  closed _ inside := absurd inside List.not_mem_nil
  within _ inside := absurd inside List.not_mem_nil
  only := rfl

theorem Wrote.trans {first second : Site → Prop}
    (before : Wrote inferred known base first log s new t)
    (after : Wrote inferred known base second (log ++ new) t more u) :
    Wrote inferred known base (fun site => first site ∨ second site) log s (new ++ more) u where
  logged := by simpa only [List.append_assoc] using after.logged
  kept id below := by
    have further : id.value < base + (log ++ new).length := by
      rw [List.length_append]
      omega
    rw [after.kept id further, before.kept id below]
  filled site inside := by
    rw [← List.append_assoc]
    rcases List.mem_append.mp inside with early | late
    · refine fills_append (List.mem_append_right log early) after.kept ?_ (before.filled site early)
      intro h here
      exact before.closed h (here ▸ early)
    · exact after.filled site late
  closed h inside := by
    rw [← List.append_assoc]
    rcases List.mem_append.mp inside with early | late
    · intro node index ref found there
      exact (before.closed h early node index ref found there).append
    · exact after.closed h late
  within site inside := by
    rcases List.mem_append.mp inside with early | late
    · rcases before.within site early with allowed | ⟨h, entered, under⟩
      · exact .inl (.inl allowed)
      · exact .inr ⟨h, List.mem_append_left more entered, under⟩
    · rcases after.within site late with allowed | ⟨h, entered, under⟩
      · exact .inl (.inr allowed)
      · exact .inr ⟨h, List.mem_append_right new entered, under⟩
  only := by rw [after.only, before.only]

theorem Wrote.mono {sites wider : Site → Prop} (wrote : Wrote inferred known base sites log s new t)
    (wide : ∀ site, sites site → wider site) : Wrote inferred known base wider log s new t where
  logged := wrote.logged
  kept := wrote.kept
  filled := wrote.filled
  closed := wrote.closed
  within site inside := (wrote.within site inside).imp_left (wide site)
  only := wrote.only

theorem Wrote.note {sites : Site → Prop} (wrote : Wrote inferred known base sites log s new t)
    (notices : List Notice) :
    Wrote inferred known base sites log s new { t with notices := notices } where
  logged := { wrote.logged with }
  kept := wrote.kept
  filled := wrote.filled
  closed := wrote.closed
  within := wrote.within
  only := wrote.only

theorem Logged.put {id : NodeId} (node : TypeNode) (logged : Logged inferred known base log s)
    (above : base ≤ id.value) (below : id.value < base + log.length) :
    Logged inferred known base log (s.put id node) where
  counted := logged.counted
  distinct := logged.distinct
  needed := logged.needed
  kept x old := by
    have apart : x ≠ id := by
      intro same
      subst same
      omega
    rw [← logged.kept x old]
    exact OrdMap.get?_insert_of_ne _ _ apart
  bounded x inside := by
    by_cases here : x = id
    · exact here ▸ below
    · apply logged.bounded x
      rwa [Recording.put, OrdMap.contains, OrdMap.get?_insert_of_ne _ _ here] at inside
  imaged := logged.imaged
  entered := logged.entered
  owned := logged.owned

theorem Logged.image {origin : NodeId} (logged : Logged inferred known base log s)
    (stands : ∀ site, inferred.arena.land known site (some h) = .old origin) :
    Logged inferred known base log { s with images := s.images.insert h origin } where
  counted := logged.counted
  distinct := logged.distinct
  needed := logged.needed
  kept := logged.kept
  bounded := logged.bounded
  imaged x id imaged := by
    rw [OrdMap.get?_insert] at imaged
    split at imaged
    next here =>
      obtain rfl := Option.some.inj imaged
      subst here
      intro site
      rw [stands site]
      exact ⟨fun _ new => Landing.noConfusion new, rfl⟩
    next => exact logged.imaged x id imaged
  entered x inside := by
    rw [OrdMap.get?_insert]
    split
    · simp
    · exact logged.entered x inside
  owned := logged.owned

theorem Logged.extend {site : Site} (logged : Logged inferred known base log s)
    (fresh : site ∉ log) (needed : inferred.Needs known site)
    (counted : t.supply.next = s.supply.next + 1)
    (kept : ∀ id, id ≠ s.supply.fresh.1 → t.target.types.get? id = s.target.types.get? id)
    (imaged : ∀ h id, t.images.get? h = some id → s.images.get? h = some id ∨
      id = s.supply.fresh.1 ∧ ∀ other, inferred.arena.land known other (some h) = .new site)
    (grown : ∀ h, s.images.get? h ≠ none ∨ site = .node h → t.images.get? h ≠ none)
    (owned : ∀ h index, site = .part h index → .node h ∈ log) :
    Logged inferred known base (log ++ [site]) t := by
  have next : s.supply.fresh.1 = ⟨base + log.length⟩ := congrArg NodeId.mk logged.counted
  refine ⟨?_, ?_, ?_, ?_, ?_, ?_, ?_, ?_⟩
  · rw [counted, logged.counted, List.length_append, List.length_singleton, Nat.add_assoc]
  · exact List.nodup_append'.mpr
      ⟨logged.distinct, List.nodup_singleton site, List.disjoint_singleton.mpr fresh⟩
  · intro a inside
    rcases List.mem_append.mp inside with before | here
    · exact logged.needed a before
    · exact List.mem_singleton.mp here ▸ needed
  · intro id old
    rw [kept id, logged.kept id old]
    intro same
    subst same
    simp only [next] at old
    omega
  · intro id inside
    rw [List.length_append, List.length_singleton]
    by_cases here : id = s.supply.fresh.1
    · simp only [here, next]
      omega
    · have before : id.value < base + log.length := by
        apply logged.bounded id
        rwa [OrdMap.contains, ← kept id here]
      omega
  · intro h id found other
    rcases imaged h id found with before | ⟨rfl, lands⟩
    · obtain ⟨settled, same⟩ := logged.imaged h id before other
      exact ⟨settled.append, settled.id_append.trans same⟩
    · rw [lands other, next]
      refine ⟨?_, Site.placeIn_next fresh⟩
      intro a given
      obtain ⟨rfl⟩ := given
      exact List.mem_append_right log (List.mem_singleton_self _)
  · intro h inside
    apply grown
    rcases List.mem_append.mp inside with before | here
    · exact .inl (logged.entered h before)
    · exact .inr (List.mem_singleton.mp here).symm
  · intro h index inside
    apply List.mem_append_left
    rcases List.mem_append.mp inside with before | here
    · exact logged.owned h index before
    · exact owned h index (List.mem_singleton.mp here).symm

theorem Logged.reserve (logged : Logged inferred known base log s)
    (unmet : s.images.get? h = none) (needed : inferred.Needs known (.node h))
    (lands : ∀ site, inferred.arena.land known site (some h) = .new (.node h)) :
    Logged inferred known base (log ++ [.node h]) (s.reserve h) := by
  refine logged.extend (fun before => logged.entered h before unmet) needed rfl
    (fun _ _ => rfl) ?_ ?_ (fun _ _ same => Site.noConfusion same)
  · intro x id found
    rw [Recording.reserve, OrdMap.get?_insert] at found
    split at found
    next here =>
      subst here
      exact .inr ⟨(Option.some.inj found).symm, lands⟩
    next => exact .inl found
  · intro x met
    rw [Recording.reserve, OrdMap.get?_insert]
    split
    · simp
    next apart =>
      rcases met with met | same
      · exact met
      · exact absurd (Site.node.inj same).symm apart

theorem Logged.blank {site : Site} (notices : List Notice)
    (logged : Logged inferred known base log s) (ready : site.Ready log)
    (needed : inferred.Needs known site) :
    Logged inferred known base (log ++ [site]) { s with notices := notices }.blank := by
  refine logged.extend ready.fresh needed rfl ?_ (fun _ _ found => .inl found) ?_ ?_
  · intro id apart
    exact OrdMap.get?_insert_of_ne _ _ apart
  · intro h given
    rcases given with met | rfl
    · exact met
    · exact ready.elim
  · intro h index same
    subst same
    exact ready.1

private theorem wrote_blank {site : Site} (notices : List Notice)
    (logged : Logged inferred known base log s) (ready : site.Ready log)
    (needed : inferred.Needs known site) :
    Wrote inferred known base (· = site) log s [site] { s with notices := notices }.blank where
  logged := logged.blank notices ready needed
  kept id below := by
    apply OrdMap.get?_insert_of_ne
    intro same
    subst same
    simp only [Supply.fresh, logged.counted] at below
    omega
  filled a inside := by
    obtain rfl := List.mem_singleton.mp inside
    have placed : (s.target.types.insert s.supply.fresh.1 (.unknown 0)).get?
        (Site.placeIn base (log ++ [a]) a) = some (.unknown 0) := by
      rw [Site.placeIn_next ready.fresh, ← logged.counted]
      exact OrdMap.get?_insert_self _ _ _
    cases a with
    | node h => exact ready.elim
    | part h index => exact placed
    | root v => exact placed
  closed h inside := by
    obtain rfl := List.mem_singleton.mp inside
    exact ready.elim
  within a inside := .inl (List.mem_singleton.mp inside)
  only := rfl

private theorem wrote_node {node : Concrete} {copy : TypeNode}
    (found : inferred.arena.get? h = some node)
    (counted : s.supply.next = base + log.length) (unmet : .node h ∉ log)
    (started : ∀ id, id.value < base + log.length → t.target.types.get? id = s.target.types.get? id)
    (same : t.target = { s.target with types := t.target.types })
    (wrote : Wrote inferred known base (fun site => ∃ index, site = .part h index)
      (log ++ [.node h]) t new u)
    (closed : Closed inferred known (log ++ [.node h] ++ new) h)
    (mirrors : node.Mirrors
      (inferred.parts known (Site.placeIn base (log ++ [.node h] ++ new)) h node) copy)
    (sites : Site → Prop) :
    Wrote inferred known base sites log s (.node h :: new) (u.put s.supply.fresh.1 copy) := by
  have split : log ++ [Site.node h] ++ new = log ++ .node h :: new := List.append_cons .. |>.symm
  have next : s.supply.fresh.1 = ⟨base + log.length⟩ := congrArg NodeId.mk counted
  have apart {id : NodeId} (below : id.value < base + log.length) : id ≠ s.supply.fresh.1 := by
    intro same
    subst same
    rw [next] at below
    exact Nat.lt_irrefl _ below
  refine ⟨?_, ?_, ?_, ?_, ?_, ?_⟩
  · rw [← split]
    apply wrote.logged.put copy
    · rw [next]
      exact Nat.le_add_right base log.length
    · rw [next, split, List.length_append, List.length_cons]
      simp only
      omega
  · intro id below
    have further : id.value < base + (log ++ [Site.node h]).length := by
      rw [List.length_append]
      omega
    rw [← started id below, ← wrote.kept id further]
    exact OrdMap.get?_insert_of_ne _ _ (apart below)
  · rw [← split]
    intro site inside
    rcases List.mem_cons.mp inside with rfl | later
    · refine ⟨node, copy, found, mirrors, ?_⟩
      rw [split, Site.placeIn_next unmet, ← next]
      exact OrdMap.get?_insert_self _ _ _
    · refine fills_insert ?_ (wrote.filled site later)
      intro same
      have here : site = .node h := by
        apply Site.placeIn_injective (List.mem_append_right _ later)
        rw [same, next, split, Site.placeIn_next unmet]
      have twice := List.disjoint_of_nodup_append wrote.logged.distinct
      exact twice (List.mem_append_right log (List.mem_singleton_self _)) (here ▸ later)
  · rw [← split]
    intro x inside
    rcases List.mem_cons.mp inside with here | later
    · exact Site.node.inj here ▸ closed
    · exact wrote.closed x later
  · intro site inside
    rcases List.mem_cons.mp inside with rfl | later
    · exact .inr ⟨h, List.mem_cons_self, .inl rfl⟩
    · rcases wrote.within site later with ⟨index, rfl⟩ | ⟨x, entered, under⟩
      · exact .inr ⟨h, List.mem_cons_self, .inr ⟨index, rfl⟩⟩
      · exact .inr ⟨x, List.mem_cons_of_mem _ entered, under⟩
  · have unchanged : u.target = { s.target with types := u.target.types } := by
      rw [wrote.only, same]
    rw [Recording.put, unchanged]

end Recording

namespace Recorder
open Recording
variable {inferred : Inferred} {known : TypeTable} {base : Nat} {log : List Site} {s t : Recording}
variable {go : Option Handle → Recorder NodeId}

def Landed (inferred : Inferred) (known : TypeTable) (base : Nat) (site : Site)
    (ref : Option Handle) (log : List Site) (s : Recording) (id : NodeId) (t : Recording) : Prop :=
  ∃ new, Wrote inferred known base (· = site) log s new t ∧
    (inferred.arena.land known site ref).Settled (log ++ new) ∧
    id = (inferred.arena.land known site ref).id (Site.placeIn base (log ++ new))

/-- Recording a reference, wherever its site is ready, makes it what it is to become. -/
def Faithful (inferred : Inferred) (known : TypeTable) (base : Nat)
    (go : Option Handle → Recorder NodeId) : Prop :=
  ∀ {site : Site} {ref : Option Handle} {log : List Site} {s t : Recording} {id : NodeId},
    go ref s = .ok id t → Logged inferred known base log s → site.Ready log →
    inferred.Refers known site ref → Landed inferred known base site ref log s id t

theorem Threads.wrote {refs : List (Option Handle)} {ids : List NodeId} {h : Handle}
    (faithful : Faithful inferred known base go) (threads : Threads go refs ids s t)
    (start : Nat) (logged : Logged inferred known base log s) (entered : .node h ∈ log)
    (ahead : ∀ index, start ≤ index → .part h index ∉ log)
    (refers : ∀ index ref, refs[index]? = some ref →
      inferred.Refers known (.part h (start + index)) ref) :
    ∃ new, Wrote inferred known base (fun site => ∃ index, site = .part h index) log s new t ∧
      (∀ index ref, refs[index]? = some ref →
        (inferred.arena.land known (.part h (start + index)) ref).Settled (log ++ new)) ∧
      ids = refs.mapIdx fun index ref =>
        (inferred.arena.land known (.part h (start + index)) ref).id
          (Site.placeIn base (log ++ new)) := by
  induction threads generalizing start log with
  | nil s => exact ⟨[], .nil _ logged, by simp, rfl⟩
  | @cons ref refs id ids s t u first rest ih =>
    have ready : (Site.part h start).Ready log := ⟨entered, ahead start (Nat.le_refl _)⟩
    obtain ⟨new, wrote, settled, same⟩ := faithful first logged ready (refers 0 ref rfl)
    have ahead' : ∀ index, start + 1 ≤ index → Site.part h index ∉ log ++ new := by
      intro index later inside
      rcases List.mem_append.mp inside with before | now
      · exact ahead index (by omega) before
      · -- a new part belongs to a handle entered now, and this one was entered before
        rcases wrote.within _ now with here | ⟨x, entering, here | ⟨i, here⟩⟩
        · have equal : index = start := (Site.part.inj here).2
          omega
        · exact Site.noConfusion here
        · obtain ⟨rfl, rfl⟩ := Site.part.inj here
          exact List.disjoint_of_nodup_append wrote.logged.distinct entered entering
    obtain ⟨more, wrote', settled', same'⟩ := ih (start + 1) wrote.logged
      (List.mem_append_left new entered) ahead' (by
        intro index part inside
        rw [Nat.add_assoc, Nat.add_comm 1]
        exact refers (index + 1) part inside)
    refine ⟨new ++ more, ?_, ?_, ?_⟩
    · refine (wrote.trans wrote').mono ?_
      intro site given
      rcases given with rfl | there
      · exact ⟨start, rfl⟩
      · exact there
    · rw [← List.append_assoc]
      intro index part inside
      cases index with
      | zero =>
        obtain rfl := Option.some.inj inside
        exact settled.append
      | succ index =>
        rw [Nat.add_comm index, ← Nat.add_assoc]
        exact settled' index part inside
    · rw [List.mapIdx_cons, ← List.append_assoc, same, same']
      simp only [Nat.add_zero, settled.id_append, Nat.add_comm 1, Nat.add_assoc]

/-- The origins of sealed types are identifiers that were taken before. -/
def OriginsBelow (arena : Arena) (base : Nat) : Prop :=
  ∀ h origin, arena.get? h = some (.sealed origin) → origin.value < base

theorem contains_eq {h : Handle} {origin : NodeId} (below : OriginsBelow inferred.arena base)
    (logged : Logged inferred known base log s)
    (found : inferred.arena.get? h = some (.sealed origin)) :
    s.target.types.contains origin = known.contains origin := by
  rw [OrdMap.contains, OrdMap.contains, logged.kept origin (below h origin found)]

private theorem origin?_eq (below : OriginsBelow inferred.arena base)
    (logged : Logged inferred known base log s) (ref : Option Handle) :
    origin? inferred.arena s.target.types ref = origin? inferred.arena known ref := by
  cases ref with
  | none => rfl
  | some h =>
    simp only [origin?, Option.bind_some]
    split
    next origin found => rw [contains_eq below logged found]
    next => rfl

section
variable {h : Handle} {node : Concrete} {site : Site} {id : NodeId}

private theorem landed_image {origin : NodeId} (logged : Logged inferred known base log s)
    (stands : ∀ a, inferred.arena.land known a (some h) = .old origin) :
    Landed inferred known base site (some h) log s origin
      { s with images := s.images.insert h origin } := by
  refine ⟨[], ⟨?_, fun _ _ => rfl, by simp, by simp, by simp, rfl⟩, ?_, ?_⟩
  · rw [List.append_nil]
    exact logged.image stands
  · rw [stands site]
    exact fun _ new => Landing.noConfusion new
  · rw [stands site]
    rfl

private theorem landed_blank {ref : Option Handle} (notices : List Notice)
    (logged : Logged inferred known base log s) (ready : site.Ready log)
    (refers : inferred.Refers known site ref)
    (lands : inferred.arena.land known site ref = .new site) :
    Landed inferred known base site ref log s s.supply.fresh.1
      { s with notices := notices }.blank := by
  refine ⟨[site], wrote_blank notices logged ready ⟨site, ref, refers, lands⟩, ?_, ?_⟩
  · rw [lands]
    intro a given
    obtain ⟨rfl⟩ := given
    exact List.mem_append_right log (List.mem_singleton_self _)
  · rw [lands, Landing.id, Site.placeIn_next ready.fresh, ← logged.counted]
    rfl

/-- The node of a handle that is met for the first time, after all of its parts. What is at its
place does not change while they are recorded. -/
theorem landed_node {u v w : Recording} {ids : List NodeId} {copy : TypeNode}
    (faithful : Faithful inferred known base go) (found : inferred.arena.get? h = some node)
    (unmet : s.images.get? h = none) (logged : Logged inferred known base log s)
    (refers : inferred.Refers known site (some h))
    (lands : ∀ a, inferred.arena.land known a (some h) = .new (.node h))
    (reserved : Logged inferred known base (log ++ [.node h]) u)
    (started : ∀ id, id.value < base + log.length →
      u.target.types.get? id = s.target.types.get? id)
    (same : u.target = { s.target with types := u.target.types })
    (threads : Threads go node.refs ids u v) (mirrors : node.Mirrors ids copy)
    (last : v.target.types.get? s.supply.fresh.1 = u.target.types.get? s.supply.fresh.1 →
      w = v.put s.supply.fresh.1 copy) :
    Landed inferred known base site (some h) log s s.supply.fresh.1 w := by
  have absent : .node h ∉ log := fun before => logged.entered h before unmet
  have entered : .node h ∈ log ++ [Site.node h] :=
    List.mem_append_right log (List.mem_singleton_self _)
  have ahead : ∀ index, 0 ≤ index → Site.part h index ∉ log ++ [Site.node h] := by
    intro index _ inside
    rcases List.mem_append.mp inside with before | here
    · exact absent (logged.owned h index before)
    · exact Site.noConfusion (List.mem_singleton.mp here)
  obtain ⟨new, wrote, settled, rfl⟩ := threads.wrote faithful 0 reserved entered ahead (by
    intro index part inside
    rw [Nat.zero_add]
    exact .part refers (lands site) found inside)
  simp only [Nat.zero_add] at settled mirrors
  have taken : s.supply.fresh.1.value < base + (log ++ [Site.node h]).length := by
    simp only [Supply.fresh, logged.counted, List.length_append, List.length_singleton]
    omega
  rw [last (wrote.kept _ taken)]
  refine ⟨.node h :: new, wrote_node found logged.counted absent started same wrote ?_ mirrors _,
    ?_, ?_⟩
  · intro other index ref found' inside
    obtain rfl := Option.some.inj (found.symm.trans found')
    exact settled index ref inside
  · rw [lands site]
    intro a given
    obtain ⟨rfl⟩ := given
    exact List.mem_append_right log List.mem_cons_self
  · rw [lands site, Landing.id, Site.placeIn_next absent, ← logged.counted]
    rfl

theorem Enters.landed (below : OriginsBelow inferred.arena base)
    (faithful : Faithful inferred known base go) (found : inferred.arena.get? h = some node)
    (unmet : s.images.get? h = none) (logged : Logged inferred known base log s)
    (ready : site.Ready log) (refers : inferred.Refers known site (some h))
    (enters : Enters inferred.arena go h node s id t) :
    Landed inferred known base site (some h) log s id t := by
  have needed (lands : ∀ a, inferred.arena.land known a (some h) = .new (.node h)) :
      inferred.Needs known (.node h) := ⟨site, some h, refers, lands site⟩
  cases enters with
  | sealed shape present =>
    subst shape
    rw [contains_eq below logged found] at present
    exact landed_image logged fun a => by simp only [Arena.land, found, present, if_true]
  | foreign shape foreign =>
    subst shape
    rw [contains_eq below logged found] at foreign
    refine landed_blank _ logged ready refers ?_
    simp only [Arena.land, found, foreign, if_false, Bool.false_eq_true]
  | through shape present =>
    subst shape
    rw [origin?_eq below logged] at present
    exact landed_image logged fun a => by simp only [Arena.land, found, present]
  | @pointer target size pointee u shape unknown threads =>
    subst shape
    rw [origin?_eq below logged] at unknown
    have lands (a : Site) : inferred.arena.land known a (some h) = .new (.node h) := by
      simp only [Arena.land, found, unknown]
    have reserved := logged.reserve unmet (needed lands) lands
    have started : Logged inferred known base (log ++ [.node h])
        ((s.reserve h).put s.supply.fresh.1 (.pointer none)) := by
      apply reserved.put
      · rw [Supply.fresh, logged.counted]
        exact Nat.le_add_right base log.length
      · simp only [Supply.fresh, logged.counted, List.length_append, List.length_singleton]
        omega
    refine landed_node faithful found unmet logged refers lands started ?_ rfl threads
      (.pointer target size pointee) ?_
    · intro x below
      apply OrdMap.get?_insert_of_ne
      intro same
      subst same
      simp only [Supply.fresh, logged.counted] at below
      omega
    · intro same
      rw [Recording.put, OrdMap.get?_insert_self] at same
      simp only [TypeTable.setPointee, same, Recording.put]
  | whole closed mirrors threads =>
    have lands (a : Site) : inferred.arena.land known a (some h) = .new (.node h) := by
      cases mirrors with
      | pointer target size => exact absurd rfl (closed target size)
      | _ => simp only [Arena.land, found]
    exact landed_node faithful found unmet logged refers lands
      (logged.reserve unmet (needed lands) lands) (fun _ _ => rfl) rfl threads mirrors fun _ => rfl

end

private theorem recordRef_faithful (below : OriginsBelow inferred.arena base)
    (faithful : Faithful inferred known base go) :
    Faithful inferred known base (recordRef inferred.arena go) := by
  intro site ref log s t id done logged ready refers
  cases ref with
  | none =>
    obtain ⟨rfl, rfl⟩ := EStateM.Result.ok.inj done
    exact landed_blank s.notices logged ready refers rfl
  | some h =>
    obtain ⟨_, _, state, done⟩ := bind_eq_ok done
    obtain ⟨rfl, rfl⟩ := EStateM.Result.ok.inj state
    cases met : s.images.get? h with
    | some image =>
      simp only [met] at done
      obtain ⟨rfl, rfl⟩ := pure_eq_ok done
      obtain ⟨settled, same⟩ := logged.imaged h id met site
      refine ⟨[], .nil _ logged, ?_, ?_⟩ <;> rw [List.append_nil]
      · exact settled
      · exact same.symm
    | none =>
      simp only [met] at done
      cases found : inferred.arena.get? h with
      | none =>
        simp only [found] at done
        cases show EStateM.Result.error _ s = .ok id t from done
      | some node =>
        simp only [found] at done
        exact (enters_of_recordNode done).landed below faithful found met logged ready refers

private theorem recordTo_faithful (below : OriginsBelow inferred.arena base) (depth : Nat) :
    Faithful inferred known base (recordTo inferred.arena depth) := by
  induction depth with
  | zero =>
    apply recordRef_faithful below
    intro site ref log s t id done
    cases show EStateM.Result.error _ s = .ok id t from done
  | succ depth ih => exact recordRef_faithful below ih

theorem recordRoots_cons {arena : Arena} {functions : OrdMap String NodeId}
    {prototypes result : OrdMap NodeId NodeId} {v : TypeVar} {h : Handle}
    {rest : List (TypeVar × Handle)}
    (done : recordRoots arena functions prototypes ((v, h) :: rest) s = .ok result t) :
    ∃ id u notices, record arena h s = .ok id u ∧
      recordRoots arena functions (prototypes.insertAll
        ((functions.get? v.text).map fun function => (function, id)).toList) rest
        { u with notices := notices } = .ok result t := by
  obtain ⟨id, u, first, done⟩ := bind_eq_ok done
  cases named : functions.get? v.text with
  | some function =>
    simp only [named] at done
    exact ⟨id, u, u.notices, first, done⟩
  | none =>
    simp only [named] at done
    obtain ⟨_, _, state, done⟩ := bind_eq_ok done
    obtain ⟨rfl, rfl⟩ := EStateM.Result.ok.inj state
    obtain ⟨_, _, noted, done⟩ := bind_eq_ok done
    obtain ⟨rfl, rfl⟩ := EStateM.Result.ok.inj noted
    exact ⟨id, u, _, first, done⟩

private theorem recordRoots_wrote {functions : OrdMap String NodeId}
    {prototypes result : OrdMap NodeId NodeId} {roots : List (TypeVar × Handle)}
    (below : OriginsBelow inferred.arena base)
    (done : recordRoots inferred.arena functions prototypes roots s = .ok result t)
    (logged : Logged inferred known base log s) (distinct : (roots.map Prod.fst).Nodup)
    (ahead : ∀ root ∈ roots, .root root.1 ∉ log)
    (given : ∀ root ∈ roots, inferred.roots.get? root.1 = some root.2) :
    ∃ new, Wrote inferred known base (fun site => ∃ v, site = .root v) log s new t ∧
      (∀ root ∈ roots,
        (inferred.arena.land known (.root root.1) (some root.2)).Settled (log ++ new)) ∧
      result = prototypes.insertAll
        (inferred.prototypes known (Site.placeIn base (log ++ new)) functions roots) := by
  induction roots generalizing prototypes log s with
  | nil =>
    obtain ⟨rfl, rfl⟩ := pure_eq_ok done
    exact ⟨[], .nil _ logged, by simp, rfl⟩
  | cons root rest ih =>
    obtain ⟨v, h⟩ := root
    obtain ⟨id, u, notices, first, later⟩ := recordRoots_cons done
    obtain ⟨apart, distinct⟩ := List.nodup_cons.mp distinct
    have refers : inferred.Refers known (.root v) (some h) := .root (given (v, h) List.mem_cons_self)
    have ready : (Site.root v).Ready log := ahead (v, h) List.mem_cons_self
    obtain ⟨new, wrote, settled, rfl⟩ := recordTo_faithful below _ first logged ready refers
    have ahead' : ∀ root ∈ rest, Site.root root.1 ∉ log ++ new := by
      intro root inside before
      rcases List.mem_append.mp before with before | now
      · exact ahead root (List.mem_cons_of_mem _ inside) before
      · rcases wrote.within _ now with here | ⟨_, _, here | ⟨_, here⟩⟩
        · exact apart (List.mem_map.mpr ⟨root, inside, Site.root.inj here⟩)
        · exact Site.noConfusion here
        · exact Site.noConfusion here
    obtain ⟨more, wrote', settled', rfl⟩ := ih later (wrote.note notices).logged distinct ahead'
      fun root inside => given root (List.mem_cons_of_mem _ inside)
    refine ⟨new ++ more, ?_, ?_, ?_⟩
    · refine ((wrote.note notices).trans wrote').mono ?_
      intro site shown
      rcases shown with rfl | there
      · exact ⟨v, rfl⟩
      · exact there
    · rw [← List.append_assoc]
      intro root inside
      rcases List.mem_cons.mp inside with rfl | inside
      · exact settled.append
      · exact settled' root inside
    · rw [← List.append_assoc, inferred.prototypes_cons, settled.id_append, OrdMap.insertAll_append]

private theorem settled_of_refers {site : Site} {ref : Option Handle}
    (roots : ∀ v h, inferred.roots.get? v = some h →
      (inferred.arena.land known (.root v) (some h)).Settled log)
    (closed : ∀ h, .node h ∈ log → Closed inferred known log h)
    (refers : inferred.Refers known site ref) :
    (inferred.arena.land known site ref).Settled log := by
  induction refers with
  | root given => exact roots _ _ given
  | part above lands found inside ih => exact closed _ (ih _ lands) _ _ _ found inside

end Recorder

/-- The module of the recording is a copy of the graph, with new nodes at the given places. What it
had stays as it was, each site that needs a new node has one of its own, with the references that
it is to have, and nothing else is new. -/
structure Inferred.IsCopied (inferred : Inferred) (m : CodeModule) (supply : Supply)
    (place : Site → NodeId) (s : Recording) : Prop where
  kept : ∀ id, id.value < supply.next → s.target.types.get? id = m.types.get? id
  fresh : ∀ site, inferred.Needs m.types site →
    supply.next ≤ (place site).value ∧ (place site).value < s.supply.next
  injective : ∀ site other, inferred.Needs m.types site → inferred.Needs m.types other →
    place site = place other → site = other
  filled : ∀ site, inferred.Needs m.types site → inferred.Fills m.types place s.target.types site
  exact : ∀ id, s.target.types.contains id →
    id.value < supply.next ∨ ∃ site, inferred.Needs m.types site ∧ id = place site
  prototypes : s.target.prototypes = OrdMap.ofList
    (inferred.prototypes m.types place (Recorder.functionsByName m) inferred.roots.entries)
  only : s.target = { m with types := s.target.types, prototypes := s.target.prototypes }

namespace Recorder
open Recording
variable {inferred : Inferred} {m : CodeModule} {supply : Supply} {s : Recording}

theorem recordInferred_wrote (ids : ∀ id, m.types.contains id → id.value < supply.next)
    (origins : OriginsBelow inferred.arena supply.next)
    (done : recordInferred inferred { target := m, supply := supply } = .ok () s) :
    ∃ log t, Wrote inferred m.types supply.next (fun site => ∃ v, site = .root v) []
        { target := m, supply := supply } log t ∧
      (∀ site, inferred.Needs m.types site ↔ site ∈ log) ∧
      s = { t with target := { t.target with
        prototypes := OrdMap.ofList (inferred.prototypes m.types (Site.placeIn supply.next log)
          (functionsByName m) inferred.roots.entries) } } := by
  obtain ⟨_, _, state, done⟩ := bind_eq_ok done
  obtain ⟨rfl, rfl⟩ := EStateM.Result.ok.inj state
  obtain ⟨prototypes, t, recorded, done⟩ := bind_eq_ok done
  obtain ⟨-, rfl⟩ := EStateM.Result.ok.inj done
  have start : Logged inferred m.types supply.next [] { target := m, supply := supply } := by
    refine ⟨rfl, List.nodup_nil, by simp, fun _ _ => rfl, ids, ?_, by simp, by simp⟩
    intro h id found
    cases show none = some id from found
  obtain ⟨log, wrote, settled, rfl⟩ := recordRoots_wrote origins recorded start
    (OrdMap.nodup_keys inferred.roots) (by simp)
    fun root inside => (OrdMap.get?_eq_some_iff _ _ _).mpr inside
  refine ⟨log, t, wrote, ?_, rfl⟩
  intro site
  refine ⟨?_, wrote.logged.needed site⟩
  intro shown
  obtain ⟨origin, ref, refers, lands⟩ := shown
  refine settled_of_refers ?_ wrote.closed refers site lands
  intro v h given
  exact settled (v, h) ((OrdMap.get?_eq_some_iff _ _ _).mp given)

/-- Recording that succeeds makes a copy of the graph. Identifiers come from the supply alone, so
those of the module and of the sealed types lie below it. -/
theorem exists_isCopied (ids : ∀ id, m.types.contains id → id.value < supply.next)
    (origins : OriginsBelow inferred.arena supply.next)
    (done : recordInferred inferred { target := m, supply := supply } = .ok () s) :
    ∃ place, inferred.IsCopied m supply place s := by
  obtain ⟨log, t, wrote, member, rfl⟩ := recordInferred_wrote ids origins done
  refine ⟨Site.placeIn supply.next log, wrote.logged.kept, ?_, ?_, ?_, ?_, rfl, ?_⟩
  · intro site needed
    have count : t.supply.next = supply.next + log.length := wrote.logged.counted
    rw [count]
    exact ⟨Nat.le_add_right _ _, Site.placeIn_lt ((member site).mp needed)⟩
  · intro site other needed _ same
    exact Site.placeIn_injective ((member site).mp needed) same
  · intro site needed
    exact wrote.filled site ((member site).mp needed)
  · intro id inside
    by_cases above : supply.next ≤ id.value
    · obtain ⟨site, listed, same⟩ :=
        Site.exists_placeIn wrote.logged.distinct above (wrote.logged.bounded id inside)
      exact .inr ⟨site, (member site).mpr listed, same⟩
    · exact .inl (Nat.lt_of_not_le above)
  · have only := wrote.only
    dsimp only at only ⊢
    rw [only]

/-- A structure that points to itself and to a sealed type of the module, taken twice by a function
that also takes a sealed type from elsewhere and a parameter of no known type. -/
def ringInferred : Inferred where
  arena := ⟨#[.struct none 16 [⟨0, some 1⟩, ⟨8, some 2⟩], .pointer (some 0) 8, .pointer (some 3) 8,
    .sealed ⟨5⟩, .function (some 1) [some 1, some 5, none], .sealed ⟨3⟩]⟩
  roots := OrdMap.ofList [(⟨"ring", []⟩, 4), (⟨"stray", []⟩, 5)]

def ringModule : CodeModule where
  name := "ring"
  isa := .x64
  functions := [⟨⟨7⟩, ["ring"], ∅, ∅⟩]
  types := OrdMap.ofList [(⟨5⟩, .pointer none)]

theorem exists_isCopied_ring : ∃ s place,
    recordInferred ringInferred { target := ringModule, supply := ⟨10⟩ } = .ok () s ∧
      ringInferred.IsCopied ringModule ⟨10⟩ place s := by
  have ids : ∀ id, ringModule.types.contains id → id.value < 10 := by
    intro id inside
    obtain ⟨node, found⟩ := (OrdMap.contains_iff _ _).mp inside
    have listed : (id, node) ∈ [((⟨5⟩ : NodeId), TypeNode.pointer none)] :=
      (OrdMap.get?_ofList _ (by decide) id node).mp found
    obtain ⟨rfl, rfl⟩ := Prod.mk.inj (List.mem_singleton.mp listed)
    decide
  have origins : OriginsBelow ringInferred.arena 10 := by
    intro h origin found
    have listed : Concrete.sealed origin ∈ ringInferred.arena.nodes := Array.mem_of_getElem? found
    simp only [ringInferred, List.mem_toArray, List.mem_cons, reduceCtorEq, Concrete.sealed.injEq,
      List.not_mem_nil, or_false, false_or] at listed
    rcases listed with rfl | rfl <;> decide
  have succeeds : (match recordInferred ringInferred { target := ringModule, supply := ⟨10⟩ } with
      | .ok _ _ => true
      | .error _ _ => false) = true := by decide +kernel
  cases done : recordInferred ringInferred { target := ringModule, supply := ⟨10⟩ } with
  | error e s => simp only [done, Bool.false_eq_true] at succeeds
  | ok u s =>
    obtain ⟨place, copied⟩ := exists_isCopied ids origins done
    exact ⟨s, place, rfl, copied⟩

end Recorder
end TypeRecovery
