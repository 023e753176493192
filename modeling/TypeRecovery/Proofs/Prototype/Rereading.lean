import TypeRecovery.Proofs.Concrete.Arenas
import TypeRecovery.Proofs.Prototype.Copies
import TypeRecovery.Proofs.Prototype.Representable
import TypeRecovery.Proofs.Prototype.Verdicts

/-! Recorded types read again. What reading makes of them can be told from the concrete types alone:
an array, a structure or a function that is met by value is refused, unless something without a size
comes before it in memory. -/
namespace TypeRecovery

/-- What a module makes of something in memory. It is read for its size first. -/
def CodeModule.partVerdict (m : CodeModule) (sized : Bool) (verdict : Verdict) : Verdict :=
  if m.isa.sizes?.isNone then .refused else if sized then verdict else .skipped

namespace Arena

/-- What a pointer leads to: the fields of a structure, or else the target as a whole. -/
def contents (a : Arena) (target : Option Handle) : List (Option Handle) :=
  match target.bind a.get? with
  | some .void | some (.function _ _) => []
  | some (.struct _ _ fields) => fields.map Field.type
  | _ => [target]

/-- Void and functions have no size, and neither have arrays of them. -/
def sizedTo (a : Arena) : Nat → Option Handle → Bool
  | 0, _ => true
  | depth + 1, ref =>
    match ref.bind a.get? with
    | some .void | some (.function _ _) => false
    | some (.array member _) => a.sizedTo depth member
    | _ => true

/-- What the module makes of a type, followed down to a bounded depth. A pointer is judged by what it
leads to, unless it is one to a sealed type of the module. -/
def verdictTo (a : Arena) (m : CodeModule) : Nat → Option Handle → Verdict
  | 0, _ => .accepted
  | depth + 1, ref =>
    match ref.bind a.get? with
    | some (.array _ _) | some (.struct _ _ _) | some (.function _ _) | some (.union _ _) => .refused
    | some (.pointer target _) =>
      if (Recorder.origin? a m.types target).isSome then .accepted
      else Verdict.first ((a.contents target).map fun part =>
        m.partVerdict (a.sizedTo depth part) (a.verdictTo m depth part))
    | _ => .accepted

end Arena

theorem TypeTable.Whole.mono {types grown : TypeTable} {id : NodeId} (whole : types.Whole id)
    (kept : ∀ id node, types.get? id = some node → grown.get? id = some node) : grown.Whole id := by
  cases whole with
  | bare found => exact .bare (kept _ _ found)
  | hollow found present hollow => exact .hollow (kept _ _ found) (kept _ _ present) hollow

private theorem Recorder.of_origin?_eq_some {arena : Arena} {table : TypeTable}
    {ref : Option Handle}
    {origin : NodeId} (known : origin? arena table ref = some origin) :
    ∃ h, arena.get? h = some (.sealed origin) ∧ table.contains origin := by
  unfold origin? at known
  split at known
  next other found =>
    split at known
    next inside =>
      obtain rfl := Option.some.inj known
      obtain ⟨h, _, there⟩ := Option.bind_eq_some_iff.mp found
      exact ⟨h, there, inside⟩
    next => contradiction
  next => contradiction

namespace CodeModule
open Reader
variable {m : CodeModule} {s : Reading} {side : Side} {about : TypeVar} {id : NodeId}

private theorem readTo_eq_readType (m : CodeModule) (depth : Nat) :
    ∃ go, m.readTo depth = m.readType go := by
  cases depth <;> exact ⟨_, rfl⟩

private theorem readTo_whole (depth : Nat) (whole : m.types.Whole id) :
    Judged s .accepted (m.readTo depth side about id s) := by
  obtain ⟨go, same⟩ := m.readTo_eq_readType depth
  rw [same, readType]
  cases whole with
  | bare found =>
    rw [found]
    exact readSealed_judged side about id
  | @hollow target node found present hollow =>
    rw [found]
    by_cases inside : id ∈ s.following
    · simp only [whileFollowing, if_pos inside]
      exact .accepted rfl
    · apply whileFollowing_judged inside
      exact readPointee_hollow present hollow

private theorem readTo_unknown {size : Nat} (depth : Nat)
    (found : m.types.get? id = some (.unknown size)) :
    Judged s .accepted (m.readTo depth side about id s) := by
  obtain ⟨go, same⟩ := m.readTo_eq_readType depth
  rw [same, readType, found]
  exact return_judged []

private theorem readTo_scalar {node : TypeNode} (depth : Nat) (found : m.types.get? id = some node)
    (scalar : node.atom?.isSome) : Judged s .accepted (m.readTo depth side about id s) := by
  obtain ⟨go, same⟩ := m.readTo_eq_readType depth
  obtain ⟨atom, named⟩ := Option.isSome_iff_exists.mp scalar
  rw [same, readType, found]
  cases node with
  | void | bool | char | int | float =>
    simp only [named]
    exact return_judged _
  | unknown | pointer | array | struct | function => contradiction

private theorem readTo_byValue {node : TypeNode} (depth : Nat) (found : m.types.get? id = some node)
    (byValue : node.kind = "array" ∨ node.kind = "struct" ∨ node.kind = "function") :
    Judged s .refused (m.readTo depth side about id s) := by
  obtain ⟨go, same⟩ := m.readTo_eq_readType depth
  rw [same, readType, found]
  cases node with
  | array | struct => exact throw_judged (.aggregate _ id)
  | function => exact throw_judged (.undescribable _ id)
  | _ => simp [TypeNode.kind] at byValue

end CodeModule

namespace Inferred
variable (inferred : Inferred) (m : CodeModule) (place : Site → NodeId) (types : TypeTable)

/-- A table with the types of a module and with a place for each site that needs a new node. What the
module has of the sealed types are pointers without contents. -/
structure Placed : Prop where
  backward : ∀ h node, inferred.arena.get? h = some node → ∀ r, some r ∈ node.refs → r < h
  inside : ∀ v h, inferred.roots.get? v = some h → h < inferred.arena.size
  whole : ∀ h origin, inferred.arena.get? h = some (.sealed origin) → m.types.contains origin →
    m.types.Whole origin
  kept : ∀ id node, m.types.get? id = some node → types.get? id = some node
  filled : ∀ site, inferred.Needs m.types site → inferred.Fills m.types place types site
  injective : ∀ h other, inferred.Needs m.types (.node h) → place (.node h) = place (.node other) →
    h = other

/-- What stands in the table for a reference: a node of which nothing is known, a sealed pointer that
was there before, or the copy of a node. -/
inductive Stands (ref : Option Handle) (id : NodeId) : Prop where
  | blank (vague : ∀ h, ref = some h → ∃ origin, inferred.arena.get? h = some (.sealed origin))
    (found : types.get? id = some (.unknown 0))
  | whole {h : Handle} {node : Concrete} (given : ref = some h)
    (found : inferred.arena.get? h = some node)
    (sealing : (∃ origin, node = .sealed origin) ∨ ∃ target size, node = .pointer target size ∧
      (Recorder.origin? inferred.arena m.types target).isSome)
    (whole : types.Whole id)
  | copy {h : Handle} {node : Concrete} {copy : TypeNode} (given : ref = some h)
    (found : inferred.arena.get? h = some node)
    (unsealed : ∀ target size, node = .pointer target size →
      Recorder.origin? inferred.arena m.types target = none)
    (own : id = place (.node h)) (needed : inferred.Needs m.types (.node h))
    (parts : ∀ index part, node.refs[index]? = some part →
      inferred.Refers m.types (.part h index) part)
    (mirrors : node.Mirrors (inferred.parts m.types place h node) copy)
    (placed : types.get? id = some copy)

variable {inferred m place types} {site : Site} {ref : Option Handle} {h : Handle}

theorem Placed.lt_size (placed : inferred.Placed m place types)
    (refers : inferred.Refers m.types site (some h)) : h < inferred.arena.size := by
  cases refers with
  | root given => exact placed.inside _ _ given
  | @part _ _ above node index _ _ _ found inside =>
    have earlier := placed.backward above node found h (List.mem_of_getElem? inside)
    exact Nat.lt_trans earlier (Arena.lt_size_iff.mpr ⟨node, found⟩)

theorem Placed.blank (placed : inferred.Placed m place types)
    (refers : inferred.Refers m.types site ref)
    (lands : inferred.arena.land m.types site ref = .new site) :
    types.get? (place site) = some (.unknown 0) := by
  have filled := placed.filled site ⟨site, ref, refers, lands⟩
  cases refers with
  | root => exact filled
  | part => exact filled

theorem Placed.copied {node : Concrete} (placed : inferred.Placed m place types)
    (refers : inferred.Refers m.types site (some h)) (found : inferred.arena.get? h = some node)
    (unsealed : ∀ target size, node = .pointer target size →
      Recorder.origin? inferred.arena m.types target = none)
    (lands : inferred.arena.land m.types site (some h) = .new (.node h)) :
    inferred.Stands m place types (some h) (place (.node h)) := by
  have needed : inferred.Needs m.types (.node h) := ⟨site, some h, refers, lands⟩
  obtain ⟨other, copy, found', mirrors, there⟩ := placed.filled _ needed
  obtain rfl := Option.some.inj (found.symm.trans found')
  exact .copy rfl found unsealed rfl needed (fun index part inside => .part refers lands found inside)
    mirrors there

theorem Placed.stands (placed : inferred.Placed m place types)
    (refers : inferred.Refers m.types site ref) :
    inferred.Stands m place types ref ((inferred.arena.land m.types site ref).id place) := by
  cases ref with
  | none => exact .blank (by simp) (placed.blank refers rfl)
  | some h =>
    obtain ⟨node, found⟩ := Arena.lt_size_iff.mp (placed.lt_size refers)
    cases node with
    | sealed origin =>
      by_cases known : m.types.contains origin
      · have lands : inferred.arena.land m.types site (some h) = .old origin := by
          simp only [Arena.land, found, known, if_true]
        rw [lands]
        exact .whole rfl found (.inl ⟨origin, rfl⟩) ((placed.whole h origin found known).mono placed.kept)
      · have lands : inferred.arena.land m.types site (some h) = .new site := by
          simp only [Arena.land, found, known, Bool.false_eq_true, if_false]
        rw [lands]
        refine .blank (fun h' same => ?_) (placed.blank refers lands)
        exact ⟨origin, Option.some.inj same ▸ found⟩
    | pointer target size =>
      cases known : Recorder.origin? inferred.arena m.types target with
      | some origin =>
        have lands : inferred.arena.land m.types site (some h) = .old origin := by
          simp only [Arena.land, found, known]
        rw [lands]
        refine .whole rfl found (.inr ⟨target, size, rfl, by rw [known]; rfl⟩) ?_
        obtain ⟨t, there, inside⟩ := Recorder.of_origin?_eq_some known
        exact (placed.whole t origin there inside).mono placed.kept
      | none =>
        have lands : inferred.arena.land m.types site (some h) = .new (.node h) := by
          simp only [Arena.land, found, known]
        rw [lands]
        refine placed.copied refers found (fun target' size' same => ?_) lands
        obtain ⟨rfl, rfl⟩ := Concrete.pointer.inj same
        exact known
    | _ =>
      have lands : inferred.arena.land m.types site (some h) = .new (.node h) := by
        simp only [Arena.land, found]
      rw [lands]
      exact placed.copied refers found (by simp) lands

theorem Placed.sizedTo_iff (placed : inferred.Placed m place types) (pointerSize : Nat)
    {depth : Nat}
    (refers : inferred.Refers m.types site ref) (bound : ∀ h, ref = some h → h < depth) :
    inferred.arena.sizedTo depth ref ↔
      ∃ n, types.SizeIs pointerSize ((inferred.arena.land m.types site ref).id place) n := by
  induction depth generalizing site ref with
  | zero =>
    cases ref with
    | none => exact iff_of_true rfl ⟨0, .unknown (placed.blank refers rfl)⟩
    | some h => exact absurd (bound h rfl) (Nat.not_lt_zero h)
  | succ depth ih =>
    have stands := placed.stands refers
    generalize (inferred.arena.land m.types site ref).id place = id at stands ⊢
    cases stands with
    | blank vague found =>
      refine iff_of_true ?_ ⟨0, .unknown found⟩
      cases ref with
      | none => rfl
      | some h =>
        obtain ⟨origin, there⟩ := vague h rfl
        simp only [Arena.sizedTo, Option.bind_some, there]
    | whole given found sealing whole =>
      obtain ⟨pointee, pointer⟩ := whole.pointer
      refine iff_of_true ?_ ⟨pointerSize, .pointer pointer⟩
      subst given
      rcases sealing with ⟨origin, rfl⟩ | ⟨target, size, rfl, _⟩ <;>
        simp only [Arena.sizedTo, Option.bind_some, found]
    | @copy h node copy given found _ _ _ parts mirrors there =>
      subst given
      refine Iff.trans ?_ (exists_congr fun n => TypeTable.sizeIs_iff).symm
      simp only [Arena.sizedTo, Option.bind_some, found, there]
      generalize same : inferred.parts m.types place h node = ids at mirrors
      cases mirrors with
      | array member length element =>
        -- Only an array takes its size from another node, which is an earlier one.
        obtain rfl : (inferred.arena.land m.types (.part h 0) member).id place = element := by
          simpa [Inferred.parts, Concrete.refs] using same
        have inner := @ih (.part h 0) member (parts 0 member rfl) fun r here => by
          have earlier := placed.backward h _ found r (here ▸ List.mem_singleton_self member)
          exact Nat.lt_of_lt_of_le earlier (Nat.le_of_lt_succ (bound h rfl))
        simp [inner]
      | void | bool | char | int | float | pointer | struct | cut | function => simp

/-- A part of what a pointer of a handle leads to, and the reference that it comes from. -/
def Matches (inferred : Inferred) (m : CodeModule) (place : Site → NodeId) (h : Handle)
    (part : Nat × NodeId) (ref : Option Handle) : Prop :=
  ∃ site, part.2 = (inferred.arena.land m.types site ref).id place ∧
    inferred.Refers m.types site ref ∧ ∀ r, ref = some r → r < h

private theorem Placed.parts_contents {target : Option Handle}
    (placed : inferred.Placed m place types)
    (refers : inferred.Refers m.types site target) (below : ∀ t, target = some t → t < h) :
    ∃ node, types.get? ((inferred.arena.land m.types site target).id place) = some node ∧
      List.Forall₂ (inferred.Matches m place h)
        (node.parts ((inferred.arena.land m.types site target).id place))
        (inferred.arena.contents target) := by
  have self : inferred.Matches m place h (0, (inferred.arena.land m.types site target).id place)
      target := ⟨site, rfl, refers, below⟩
  have stands := placed.stands refers
  generalize (inferred.arena.land m.types site target).id place = id at self stands ⊢
  cases stands with
  | blank vague found =>
    refine ⟨_, found, ?_⟩
    have only : inferred.arena.contents target = [target] := by
      cases target with
      | none => rfl
      | some t =>
        obtain ⟨origin, there⟩ := vague t rfl
        simp only [Arena.contents, Option.bind_some, there]
    rw [only]
    exact .cons self .nil
  | whole given found sealing whole =>
    obtain ⟨pointee, pointer⟩ := whole.pointer
    refine ⟨_, pointer, ?_⟩
    have only : inferred.arena.contents target = [target] := by
      subst given
      rcases sealing with ⟨origin, rfl⟩ | ⟨target, size, rfl, _⟩ <;>
        simp only [Arena.contents, Option.bind_some, found]
    rw [only]
    exact .cons self .nil
  | @copy t node copy given found _ _ _ parts mirrors there =>
    refine ⟨copy, there, ?_⟩
    subst given
    have fields_match {name : Option String} {size : Nat} {fields : List Field}
        (same : node = .struct name size fields) : List.Forall₂ (inferred.Matches m place h)
          ((fields.map Field.offset).zip (inferred.parts m.types place t node))
          (fields.map Field.type) := by
      subst same
      refine List.forall₂_iff_get.mpr ⟨by simp [Inferred.parts, Concrete.refs], fun i _ bound => ?_⟩
      have listed : (fields.map Field.type)[i]? = some ((fields.map Field.type).get ⟨i, bound⟩) :=
        List.getElem?_eq_getElem bound
      refine ⟨.part t i, by simp [Inferred.parts, Concrete.refs], parts i _ listed, fun r same => ?_⟩
      have earlier := placed.backward t _ found r
        (List.mem_of_getElem? (listed.trans (congrArg some same)))
      exact Nat.lt_trans earlier (below t rfl)
    simp only [Arena.contents, Option.bind_some, found]
    generalize same : inferred.parts m.types place t node = ids at mirrors fields_match
    cases mirrors with
    | void | function => exact .nil
    | struct | cut => exact fields_match rfl
    | bool | char | int | float | pointer | array => exact .cons self .nil

section
open Reader
variable {written : CodeModule} {side : Side} {s : Reading}

theorem Placed.readPart_judged {part : Nat × NodeId} {depth : Nat} {about : TypeVar}
    {go : Side → TypeVar → NodeId → Reader (List Constraint)}
    (placed : inferred.Placed m place written.types) (isa : written.isa = m.isa)
    (matched : inferred.Matches m place h part ref) (bound : h ≤ depth)
    (goes : ∀ about, Judged s (inferred.arena.verdictTo m depth ref) (go side about part.2 s)) :
    Judged s (m.partVerdict (inferred.arena.sizedTo depth ref) (inferred.arena.verdictTo m depth ref))
      (written.readPart go side about part s) := by
  unfold CodeModule.partVerdict
  cases sizes : m.isa.sizes? with
  | none => exact CodeModule.readPart_refused (isa ▸ sizes) part
  | some words =>
    have supported : written.isa.sizes? = some words := by rw [isa, sizes]
    obtain ⟨site, landed, refers, earlier⟩ := matched
    have measured := placed.sizedTo_iff words.pointer refers
      fun r here => Nat.lt_of_lt_of_le (earlier r here) bound
    rw [← landed] at measured
    by_cases sized : inferred.arena.sizedTo depth ref
    · obtain ⟨n, size⟩ := measured.mp sized
      rw [sized]
      exact CodeModule.readPart_judged supported size goes
    · have unsized : ∀ n, ¬ written.types.SizeIs words.pointer part.2 n :=
        fun n size => sized (measured.mpr ⟨n, size⟩)
      rw [eq_false_of_ne_true sized]
      exact CodeModule.readPart_skipped supported unsized

/-- Reading a recorded type comes to what its concrete type is judged to be. -/
theorem Placed.readTo_judged (placed : inferred.Placed m place written.types)
    (isa : written.isa = m.isa) {depth : Nat} (refers : inferred.Refers m.types site ref)
    (bound : ∀ h, ref = some h → h < depth) (fuel : Nat) (about : TypeVar)
    (tracked : written.Tracks s.following)
    (enough : written.types.size ≤ fuel + s.following.length)
    (above : ∀ h, ref = some h → ∀ p ∈ s.following, ∃ other, p = place (.node other) ∧ h < other) :
    Judged s (inferred.arena.verdictTo m depth ref)
      (written.readTo fuel side about ((inferred.arena.land m.types site ref).id place) s) := by
  induction depth generalizing site ref fuel about s with
  | zero =>
    cases ref with
    | none => exact CodeModule.readTo_unknown fuel (placed.blank refers rfl)
    | some h => exact absurd (bound h rfl) (Nat.not_lt_zero h)
  | succ depth ih =>
    have stands := placed.stands refers
    generalize (inferred.arena.land m.types site ref).id place = id at stands ⊢
    cases stands with
    | blank vague found =>
      have accepted : inferred.arena.verdictTo m (depth + 1) ref = .accepted := by
        cases ref with
        | none => rfl
        | some h =>
          obtain ⟨origin, there⟩ := vague h rfl
          simp only [Arena.verdictTo, Option.bind_some, there]
      rw [accepted]
      exact CodeModule.readTo_unknown fuel found
    | whole given found sealing whole =>
      have accepted : inferred.arena.verdictTo m (depth + 1) ref = .accepted := by
        subst given
        rcases sealing with ⟨origin, rfl⟩ | ⟨target, size, rfl, known⟩
        · simp only [Arena.verdictTo, Option.bind_some, found]
        · simp only [Arena.verdictTo, Option.bind_some, found, known, if_true]
      rw [accepted]
      exact CodeModule.readTo_whole fuel whole
    | @copy h node copy given found unsealed own needed parts mirrors there =>
      subst given
      generalize same : inferred.parts m.types place h node = ids at mirrors
      cases mirrors with
      | void | bool | int | float =>
        simp only [Arena.verdictTo, Option.bind_some, found]
        exact CodeModule.readTo_scalar fuel there rfl
      | char width =>
        simp only [Arena.verdictTo, Option.bind_some, found]
        apply CodeModule.readTo_scalar fuel there
        unfold TypeNode.atom?
        split <;> simp_all
      | array | struct | cut | function =>
        simp only [Arena.verdictTo, Option.bind_some, found]
        exact CodeModule.readTo_byValue fuel there (by simp [TypeNode.kind])
      | pointer target size pointee =>
        have judged : inferred.arena.verdictTo m (depth + 1) (some h) =
            Verdict.first ((inferred.arena.contents target).map fun part => m.partVerdict
              (inferred.arena.sizedTo depth part) (inferred.arena.verdictTo m depth part)) := by
          simp only [Arena.verdictTo, Option.bind_some, found, unsealed target size rfl,
            Option.isSome_none, Bool.false_eq_true, if_false]
        obtain rfl : (inferred.arena.land m.types (.part h 0) target).id place = pointee := by
          simpa [Inferred.parts, Concrete.refs] using same
        -- The pointers being followed belong to later handles, so this one is not among them.
        have outside : id ∉ s.following := by
          intro inside
          obtain ⟨other, same, later⟩ := above h rfl id inside
          exact absurd (placed.injective h other needed (own ▸ same)) (Nat.ne_of_lt later)
        have opened : written.Opens ⟨s.following, about, id⟩ _ := ⟨there, outside⟩
        have tracked' : written.Tracks (id :: s.following) := tracked.cons opened
        have length := tracked'.length_le
        rw [List.length_cons] at length
        obtain ⟨less, rfl⟩ : ∃ less, fuel = less + 1 := Nat.exists_eq_add_one.mpr (by omega)
        have shallow (t : Handle) (here : target = some t) : t < h :=
          placed.backward h _ found t (here ▸ List.mem_singleton_self target)
        obtain ⟨node, present, matched⟩ := placed.parts_contents (parts 0 target rfl) shallow
        rw [judged, CodeModule.readTo, CodeModule.readType, there]
        apply whileFollowing_judged outside
        apply CodeModule.readPointee_judged present
        apply List.forall₂_map_right_iff.mpr
        apply matched.imp
        intro part ref here t kept
        apply placed.readPart_judged isa here (Nat.le_of_lt_succ (bound h rfl))
        intro about
        obtain ⟨site, landed, refers, earlier⟩ := here
        rw [landed]
        apply ih refers
        · exact fun r same => Nat.lt_of_lt_of_le (earlier r same) (Nat.le_of_lt_succ (bound h rfl))
        · rwa [kept]
        · rw [kept, List.length_cons]
          omega
        · intro r same p inside
          rw [kept] at inside
          rcases List.mem_cons.mp inside with rfl | before
          · exact ⟨h, own, earlier r same⟩
          · obtain ⟨other, named, later⟩ := above h rfl p before
            exact ⟨other, named, Nat.lt_trans (earlier r same) later⟩

private theorem Placed.readWhole_judged {about : TypeVar}
    (placed : inferred.Placed m place written.types)
    (isa : written.isa = m.isa) (refers : inferred.Refers m.types site ref)
    (idle : s.following = []) :
    Judged s (inferred.arena.verdictTo m inferred.arena.size ref)
      (written.readWhole side about ((inferred.arena.land m.types site ref).id place) s) := by
  apply placed.readTo_judged isa refers
  · intro h same
    subst same
    exact placed.lt_size refers
  · rw [idle]
    exact ⟨List.nodup_nil, List.nil_subset _⟩
  · exact Nat.le_add_right _ _
  · intro h _ p inside
    rw [idle] at inside
    contradiction

end

def verdict (inferred : Inferred) (m : CodeModule) (h : Handle) : Verdict :=
  match inferred.arena.get? h with
  | some (.function ret params) =>
    Verdict.first ((params ++ [ret]).map (inferred.arena.verdictTo m inferred.arena.size))
  | _ => .accepted

/-- The types that the functions of a module get; of several for one function, the last one. -/
def assigned (inferred : Inferred) (m : CodeModule) : OrdMap NodeId Handle :=
  OrdMap.ofList (inferred.roots.entries.filterMap fun root =>
    ((Recorder.functionsByName m).get? root.1.text).map fun function => (function, root.2))

open Reader in
private theorem Placed.readFunction_judged {written : CodeModule} {id : NodeId} {f : Routine}
    {ret : Option Handle} {params : List (Option Handle)} {s : Reading}
    (placed : inferred.Placed m place written.types) (isa : written.isa = m.isa)
    (known : written.function? id = some f)
    (recorded : written.prototypes.get? id = some (place (.node h)))
    (refers : inferred.Refers m.types site (some h))
    (found : inferred.arena.get? h = some (.function ret params)) (idle : s.following = []) :
    Judged s (inferred.verdict m h) (written.readFunction id s) := by
  have lands : inferred.arena.land m.types site (some h) = .new (.node h) := by
    simp only [Arena.land, found]
  have part (index : Nat) (ref : Option Handle)
      (inside : (Concrete.function ret params).refs[index]? = some ref) (side : Side) (about : TypeVar)
      (t : Reading) (idle : t.following = []) :=
    @readWhole_judged _ _ _ (.part h index) ref written side t about placed isa
      (.part refers lands found inside) idle
  obtain ⟨other, copy, found', mirrors, there⟩ := placed.filled _ ⟨site, some h, refers, lands⟩
  obtain rfl := Option.some.inj (found.symm.trans found')
  generalize same : inferred.parts m.types place h (.function ret params) = ids at mirrors
  cases mirrors with
  | function ret params result args =>
    obtain ⟨rfl, rfl⟩ : _ ∧ _ := by simpa [Inferred.parts, Concrete.refs] using same
    have judged : inferred.verdict m h = Verdict.first
        (params.map (inferred.arena.verdictTo m inferred.arena.size) ++
          [inferred.arena.verdictTo m inferred.arena.size ret]) := by
      simp only [Inferred.verdict, found, List.map_append, List.map_cons, List.map_nil]
    have arguments : List.Forall₂ (fun id v => ∀ about (t : Reading), t.following = [] →
        Judged t v (written.readWhole .left about id t))
        (params.mapIdx fun index ref =>
          (inferred.arena.land m.types (.part h (index + 1)) ref).id place)
        (params.map (inferred.arena.verdictTo m inferred.arena.size)) := by
      refine List.forall₂_iff_get.mpr ⟨by simp, fun i bound _ about t idle => ?_⟩
      rw [List.length_mapIdx] at bound
      have inside : (ret :: params)[i + 1]? = some params[i] := List.getElem?_eq_getElem bound
      simpa using part (i + 1) _ inside .left about t idle
    have whole := CodeModule.readPrototype_judged (written.functionName f) idle arguments (part 0 ret rfl .right)
    have rest := Judged.bind whole fun constraints t _ =>
      return_judged (s := t) (some (written.functionName f, constraints))
    rw [Verdict.andThen_accepted] at rest
    rw [judged, CodeModule.readFunction, recorded]
    simp only [known, there]
    exact rest

private theorem exists_function?_of_assigned {id : NodeId} {h : Handle}
    (given : (inferred.assigned m).get? id = some h) :
    (∃ f, m.function? id = some f) ∧ ∃ v, inferred.roots.get? v = some h := by
  rw [assigned, OrdMap.get?_ofList_eq] at given
  have listed := OrdMap.mem_valuesAt.mp (List.mem_of_getLast? given)
  obtain ⟨⟨v, h'⟩, entry, named⟩ := List.mem_filterMap.mp listed
  obtain ⟨function, called, same⟩ := Option.map_eq_some_iff.mp named
  obtain ⟨rfl, rfl⟩ := Prod.mk.inj same
  refine ⟨?_, v, (OrdMap.get?_eq_some_iff _ _ _).mpr entry⟩
  rw [Recorder.functionsByName, OrdMap.get?_ofList_eq] at called
  have member := OrdMap.mem_valuesAt.mp (List.mem_of_getLast? called)
  obtain ⟨f, inside, same⟩ := List.mem_map.mp member
  obtain ⟨_, rfl⟩ := Prod.mk.inj same
  apply Option.isSome_iff_exists.mp
  rw [CodeModule.function?, List.find?_isSome]
  exact ⟨f, inside, by simp⟩

theorem prototypes_get? (place : Site → NodeId) (functions : ∀ v h, inferred.roots.get? v = some h →
      ∃ ret params, inferred.arena.get? h = some (.function ret params)) (id : NodeId) :
    (OrdMap.ofList (inferred.prototypes m.types place (Recorder.functionsByName m)
      inferred.roots.entries)).get? id =
      ((inferred.assigned m).get? id).map fun h => place (.node h) := by
  rw [assigned, ← OrdMap.get?_ofList_map, List.map_filterMap, prototypes]
  congr 2
  apply List.filterMap_congr
  intro root entry
  obtain ⟨ret, params, found⟩ := functions root.1 root.2 ((OrdMap.get?_eq_some_iff _ _ _).mpr entry)
  have lands : inferred.arena.land m.types (.root root.1) (some root.2) = .new (.node root.2) := by
    simp only [Arena.land, found]
  rw [Option.map_map, lands]
  rfl

theorem Placed.readPrototypes_iff {written : CodeModule}
    (placed : inferred.Placed m place written.types) (isa : written.isa = m.isa)
    (routines : written.functions = m.functions)
    (functions : ∀ v h, inferred.roots.get? v = some h →
      ∃ ret params, inferred.arena.get? h = some (.function ret params))
    (recorded : ∀ id, written.prototypes.get? id =
      ((inferred.assigned m).get? id).map fun h => place (.node h)) :
    ((∃ all t, written.readPrototypes {} = .ok all t) ↔
      ∀ id h, (inferred.assigned m).get? id = some h → inferred.verdict m h ≠ .refused) ∧
    ∀ e t, written.readPrototypes {} = .error e t → e.IsRefusal := by
  let judge (id : NodeId) : Verdict :=
    ((inferred.assigned m).get? id).elim .accepted (inferred.verdict m)
  have keys (id : NodeId) : id ∈ written.prototypes.keys ↔
      ∃ h, (inferred.assigned m).get? id = some h := by
    rw [OrdMap.mem_keys, recorded]
    simp
  have each (id : NodeId) (listed : id ∈ written.prototypes.keys) (t : Reading)
      (idle : t.following = []) : Reader.Judged t (judge id) (written.readFunction id t) := by
    obtain ⟨h, given⟩ := (keys id).mp listed
    obtain ⟨⟨f, known⟩, v, root⟩ := exists_function?_of_assigned given
    obtain ⟨ret, params, found⟩ := functions v h root
    have judged : judge id = inferred.verdict m h := by simp only [judge, given, Option.elim_some]
    rw [CodeModule.function?, ← routines] at known
    rw [judged]
    apply placed.readFunction_judged isa known _ (.root root) found idle
    rw [recorded, given]
    rfl
  obtain ⟨reads, fails⟩ := @CodeModule.readInto_judged written {} judge _ ∅ rfl each
  refine ⟨reads.trans ⟨?_, ?_⟩, fails⟩
  · intro good id h given
    have judged := good id ((keys id).mpr ⟨h, given⟩)
    simpa only [judge, given, Option.elim_some] using judged
  · intro good id listed
    obtain ⟨h, given⟩ := (keys id).mp listed
    simpa only [judge, given, Option.elim_some] using good id h given

end Inferred

namespace Recorder
variable {inferred : Inferred} {m : CodeModule} {supply : Supply} {s : Recording}
  {allowed : NodeId → Prop}

theorem recordInferred_only (ids : ∀ id, m.types.contains id → id.value < supply.next)
    (below : OriginsBelow inferred.arena supply.next)
    (done : recordInferred inferred { target := m, supply := supply } = .ok () s) :
    s.target = { m with types := s.target.types, prototypes := s.target.prototypes } ∧
      supply.next ≤ s.supply.next := by
  obtain ⟨log, t, wrote, _, rfl⟩ := recordInferred_wrote ids below done
  have only := wrote.only
  dsimp only at only ⊢
  have count : t.supply.next = supply.next + log.length := wrote.logged.counted
  rw [only, count]
  exact ⟨rfl, Nat.le_add_right _ _⟩

/-- The prototypes of a module in which types have been recorded can all be read, unless a type that
a function got is refused. -/
theorem recordInferred_readPrototypes
    (ids : ∀ id, m.types.contains id → id.value < supply.next)
    (grounded : inferred.arena.Grounded allowed)
    (origins : ∀ origin, allowed origin → origin.value < supply.next)
    (whole : ∀ origin, allowed origin → m.types.contains origin → m.types.Whole origin)
    (functions : ∀ v h, inferred.roots.get? v = some h →
      ∃ ret params, inferred.arena.get? h = some (.function ret params))
    (done : recordInferred inferred { target := m, supply := supply } = .ok () s)
    (comments : OrdMap Position String) :
    let written : CodeModule := { s.target with comments := comments }
    ((∃ all t, written.readPrototypes {} = .ok all t) ↔
      ∀ id h, (inferred.assigned m).get? id = some h → inferred.verdict m h ≠ .refused) ∧
    ∀ e t, written.readPrototypes {} = .error e t → e.IsRefusal := by
  have below : OriginsBelow inferred.arena supply.next := by
    intro h origin found
    exact origins origin ((grounded h _ found).2.2 origin rfl)
  obtain ⟨log, t, wrote, member, same⟩ := recordInferred_wrote ids below done
  have types : s.target.types = t.target.types := by rw [same]
  have placed : inferred.Placed m (Site.placeIn supply.next log) s.target.types := by
    rw [types]
    refine ⟨fun h node found => (grounded h node found).2.1, ?_, ?_, ?_, ?_, ?_⟩
    · intro v h given
      obtain ⟨ret, params, found⟩ := functions v h given
      exact Arena.lt_size_iff.mpr ⟨_, found⟩
    · intro h origin found
      exact whole origin ((grounded h _ found).2.2 origin rfl)
    · intro id node found
      rw [wrote.logged.kept id (ids id ((OrdMap.contains_iff _ _).mpr ⟨node, found⟩)), found]
    · intro site needed
      exact wrote.filled site ((member site).mp needed)
    · intro h other needed same
      exact Site.node.inj (Site.placeIn_injective ((member _).mp needed) same)
  obtain ⟨only, _⟩ := recordInferred_only ids below done
  have isa : s.target.isa = m.isa := by rw [only]
  have routines : s.target.functions = m.functions := by rw [only]
  have prototypes : s.target.prototypes = OrdMap.ofList (inferred.prototypes m.types
      (Site.placeIn supply.next log) (functionsByName m) inferred.roots.entries) := by rw [same]
  intro written
  have placed : inferred.Placed m (Site.placeIn supply.next log) written.types := placed
  apply placed.readPrototypes_iff isa routines functions
  intro id
  exact (congrArg (OrdMap.get? · id) prototypes).trans (Inferred.prototypes_get? _ functions id)

end Recorder
end TypeRecovery
