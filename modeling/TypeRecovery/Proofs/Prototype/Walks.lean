import Mathlib.Data.List.Perm.Subperm
import TypeRecovery.Prototype.Reading
import TypeRecovery.Proofs.Binary.Sizes

/-! Access paths of a prototype. A walk starts at an argument or the result and goes on through
pointers to what they lead to, never through a pointer that it is already inside of. Reading a
prototype fails just when some walk comes to a fault, and finds just the constraints that walks
yield where they end. -/
namespace TypeRecovery
open Relation

/-- What a pointer to a type leads to: the fields of a structure, or else the type as a whole. A
type without contents has no parts. -/
def TypeNode.parts (id : NodeId) : TypeNode → List (Nat × NodeId)
  | void | function _ _ => []
  | struct _ fields => fields
  | _ => [(0, id)]

inductive TypeNode.IsNamed : TypeNode → String → Prop where
  | void : IsNamed .void "void"
  | bool : IsNamed .bool "bool"
  | signed (size : Nat) : IsNamed (.int size true) ("int" ++ Text.bitsText size)
  | unsigned (size : Nat) : IsNamed (.int size false) ("uint" ++ Text.bitsText size)
  | float (size : Nat) : IsNamed (.float size) ("float" ++ Text.bitsText size)
  | char : IsNamed (.char 1) "char"
  | wide {size : Nat} (wide : size ≠ 1) : IsNamed (.char size) ("char" ++ Text.bitsText size)

theorem TypeNode.isNamed_iff {node : TypeNode} {name : String} :
    node.IsNamed name ↔ node.atom? = some name := by
  constructor
  · intro named
    cases named with
    | signed => simp [atom?]
    | wide => simp [atom?]
    | _ => rfl
  · intro described
    unfold atom? at described
    split at described
    next size signed =>
      obtain rfl := Option.some.inj described
      cases signed
      · exact .unsigned size
      · simpa using IsNamed.signed size
    next => exact Option.some.inj described ▸ .float _
    next => exact Option.some.inj described ▸ .char
    next wide => exact Option.some.inj described ▸ .wide wide
    next => exact Option.some.inj described ▸ .void
    next => exact Option.some.inj described ▸ .bool
    next => contradiction

/-- A place that a walk comes to: the pointers it is inside of, the last one first, the variable
that it has arrived at, and the type of that variable. -/
structure Waypoint where
  trail : List NodeId
  about : TypeVar
  type : NodeId

/-- The variable at an offset from a pointer, for an access of some size. -/
def Side.reach (side : Side) (about : TypeVar) (offset size : Nat) : TypeVar :=
  (about.extend side.access).extend (.deref (UInt64.ofNat size) (Int64.ofNat offset))

namespace CodeModule
variable (m : CodeModule)

/-- The size of a type on the instruction set of the module. There is none without word sizes. -/
def SizeIs (id : NodeId) (size : Nat) : Prop :=
  ∃ words, m.isa.sizes? = some words ∧ m.types.SizeIs words.pointer id size

/-- The place is a pointer with a target that the walk is not inside of yet. -/
def Opens (place : Waypoint) (target : NodeId) : Prop :=
  m.types.get? place.type = some (.pointer (some target)) ∧ place.type ∉ place.trail

inductive Step (side : Side) (place : Waypoint) : Waypoint → Prop where
  | part {target : NodeId} {node : TypeNode} {part : Nat × NodeId} {size : Nat}
    (opened : m.Opens place target) (found : m.types.get? target = some node)
    (inside : part ∈ node.parts target) (sized : m.SizeIs part.2 size) :
    Step side place ⟨place.type :: place.trail, side.reach place.about part.1 size, part.2⟩

/-- Why a walk cannot be described. -/
inductive Fault (place : Waypoint) : Prop where
  | missing (absent : m.types.get? place.type = none)
  | array {element : NodeId} {count : Nat}
    (byValue : m.types.get? place.type = some (.array element count))
  | struct {size : Nat} {fields : List (Nat × NodeId)}
    (byValue : m.types.get? place.type = some (.struct size fields))
  | function {ret : Option NodeId} {params : List (Option NodeId)}
    (byValue : m.types.get? place.type = some (.function ret params))
  | lost {target : NodeId} (opened : m.Opens place target)
    (absent : m.types.get? target = none)
  | unsized {target : NodeId} {node : TypeNode} {part : Nat × NodeId} {words : WordSizes}
    (opened : m.Opens place target) (found : m.types.get? target = some node)
    (inside : part ∈ node.parts target) (supported : m.isa.sizes? = some words)
    (unsized : ∀ size, ¬ m.types.SizeIs words.pointer part.2 size)
  | unsupported {target : NodeId} {node : TypeNode} {part : Nat × NodeId}
    (opened : m.Opens place target) (found : m.types.get? target = some node)
    (inside : part ∈ node.parts target) (unsupported : m.isa.sizes? = none)

/-- The place is a pointer to nothing, or to something without parts. -/
inductive Seals (place : Waypoint) : Prop where
  | bare (found : m.types.get? place.type = some (.pointer none))
  | hollow {target : NodeId} {node : TypeNode} (opened : m.Opens place target)
    (found : m.types.get? target = some node) (hollow : node.parts target = [])

/-- What a walk that ends at a place says about its variable. -/
inductive Yields (side : Side) (place : Waypoint) : Constraint → Prop where
  | scalar {node : TypeNode} {name : String} (found : m.types.get? place.type = some node)
    (named : node.IsNamed name) : Yields side place (side.order place.about ⟨name, []⟩)
  | pointer (whole : m.Seals place) :
    Yields side place (side.order place.about (Reading.sealedAtom place.type))

def Leads (side : Side) (start : Waypoint) (kind : Waypoint → Prop) : Prop :=
  ∃ place, ReflTransGen (m.Step side) start place ∧ kind place

theorem leads_iff {side : Side} {start : Waypoint} {kind : Waypoint → Prop} :
    m.Leads side start kind ↔
      kind start ∨ ∃ next, m.Step side start next ∧ m.Leads side next kind := by
  constructor
  · intro given
    obtain ⟨place, walk, reached⟩ := given
    rcases walk.cases_head with rfl | ⟨next, first, rest⟩
    · exact .inl reached
    · exact .inr ⟨next, first, place, rest, reached⟩
  · intro given
    rcases given with here | ⟨next, first, place, rest, reached⟩
    · exact ⟨start, .refl, here⟩
    · exact ⟨place, .head first rest, reached⟩

end CodeModule

/-- What there is to find: constraints, perhaps a fault, and sealed pointers. -/
structure Report where
  finds : Constraint → Prop
  faulty : Prop
  seals : NodeId → Prop

def Report.or (r r' : Report) : Report where
  finds c := r.finds c ∨ r'.finds c
  faulty := r.faulty ∨ r'.faulty
  seals pointer := r.seals pointer ∨ r'.seals pointer

def Report.any {α : Type} (parts : List α) (report : α → Report) : Report where
  finds c := ∃ a ∈ parts, (report a).finds c
  faulty := ∃ a ∈ parts, (report a).faulty
  seals pointer := ∃ a ∈ parts, (report a).seals pointer

namespace Reader

/-- The outcome of work from a state is what a report says, and the same pointers are followed
after it as before. A failure may come before all sealed pointers are known. -/
inductive Covers (s : Reading) (report : Report) :
    EStateM.Result Error Reading (List Constraint) → Prop where
  | ok {found : List Constraint} {t : Reading} (kept : t.following = s.following)
    (sound : ¬ report.faulty) (exact : ∀ c, c ∈ found ↔ report.finds c)
    (sealing : ∀ p, p ∈ t.sealedPointers ↔ p ∈ s.sealedPointers ∨ report.seals p) :
    Covers s report (.ok found t)
  | error {e : Error} {t : Reading} (kept : t.following = s.following) (faulty : report.faulty)
    (grown : ∀ p, p ∈ s.sealedPointers → p ∈ t.sealedPointers)
    (sealing : ∀ p, p ∈ t.sealedPointers → p ∈ s.sealedPointers ∨ report.seals p) :
    Covers s report (.error e t)

theorem Covers.congr {s : Reading} {r r' : Report}
    {result : EStateM.Result Error Reading (List Constraint)}
    (finds : ∀ c, r.finds c ↔ r'.finds c) (faulty : r.faulty ↔ r'.faulty)
    (seals : ∀ p, r.seals p ↔ r'.seals p) (covered : Covers s r result) : Covers s r' result := by
  cases covered with
  | ok kept sound exact sealing =>
    exact .ok kept (faulty.not.mp sound) (fun c => (exact c).trans (finds c))
      (fun p => (sealing p).trans (or_congr_right (seals p)))
  | error kept failed grown sealing =>
    exact .error kept (faulty.mp failed) grown fun p inside => (sealing p inside).imp_right (seals p).mp

private theorem throw_covers {s : Reading} {report : Report} (e : Error) (faulty : report.faulty) :
    Covers s report ((throw e : Reader (List Constraint)) s) :=
  .error rfl faulty (fun _ inside => inside) fun _ inside => .inl inside

private theorem return_covers {s : Reading} {report : Report} (found : List Constraint)
    (sound : ¬ report.faulty) (exact : ∀ c, c ∈ found ↔ report.finds c)
    (unsealed : ∀ p, ¬ report.seals p) :
    Covers s report ((pure found : Reader (List Constraint)) s) :=
  .ok rfl sound exact fun p => by simp [unsealed p]

private theorem readSealed_covers {s : Reading} {report : Report} (side : Side) (about : TypeVar)
    (pointer : NodeId) (sound : ¬ report.faulty)
    (exact : ∀ c, report.finds c ↔ c = side.order about (Reading.sealedAtom pointer))
    (sealing : ∀ p, report.seals p ↔ p = pointer) :
    Covers s report (readSealed side about pointer s) := by
  refine .ok rfl sound (fun c => ?_) (fun p => ?_)
  · simp [exact]
  · rw [sealing, or_comm]
    exact OrdSet.mem_insert

theorem append_covers {first second : Reader (List Constraint)} {r r' : Report} {s : Reading}
    (before : Covers s r (first s))
    (after : ∀ t, t.following = s.following → Covers t r' (second t)) :
    Covers s (r.or r') ((do
      let found ← first
      let more ← second
      return found ++ more : Reader (List Constraint)) s) := by
  simp only [bind, EStateM.bind]
  cases read : first s with
  | error e t =>
    rw [read] at before
    obtain _ | ⟨kept, failed, grown, sealing⟩ := before
    exact .error kept (.inl failed) grown fun p inside => (sealing p inside).imp_right .inl
  | ok found t =>
    rw [read] at before
    obtain ⟨kept, sound, exact, sealing⟩ := before
    have rest := after t kept
    simp only
    cases more : second t with
    | error e u =>
      rw [more] at rest
      obtain _ | ⟨keptRest, failed, grown, sealingRest⟩ := rest
      refine .error (keptRest.trans kept) (.inr failed) ?_ ?_
      · intro p inside
        exact grown p ((sealing p).mpr (.inl inside))
      · intro p inside
        rcases sealingRest p inside with middle | named
        · exact ((sealing p).mp middle).imp_right .inl
        · exact .inr (.inr named)
    | ok others u =>
      rw [more] at rest
      obtain ⟨keptRest, soundRest, exactRest, sealingRest⟩ := rest
      refine .ok (keptRest.trans kept) ?_ (fun c => ?_) (fun p => ?_)
      · intro given
        rcases given with failed | failed
        · exact sound failed
        · exact soundRest failed
      · simp only [List.mem_append, exact, exactRest, Report.or]
      · simp only [sealingRest, sealing, Report.or, or_assoc]

private theorem collect_covers {α : Type} (part : α → Reader (List Constraint))
    (report : α → Report)
    (parts : List α) (s : Reading)
    (each : ∀ a ∈ parts, ∀ t, t.following = s.following → Covers t (report a) (part a t)) :
    Covers s (.any parts report) (collect part parts s) := by
  induction parts generalizing s with
  | nil => exact return_covers [] (by simp [Report.any]) (by simp [Report.any]) (by simp [Report.any])
  | cons a rest ih =>
    have first := each a List.mem_cons_self s rfl
    have tail (t : Reading) (kept : t.following = s.following) :
        Covers t (.any rest report) (collect part rest t) :=
      ih t fun b inside u same => each b (List.mem_cons_of_mem a inside) u (same.trans kept)
    refine (append_covers first tail).congr ?_ ?_ ?_ <;> simp [Report.any, Report.or]

private theorem whileFollowing_covers {s : Reading} {report : Report} {pointer : NodeId}
    {work : Reader (List Constraint)} (entered : pointer ∉ s.following)
    (covered : Covers { s with following := pointer :: s.following } report
      (work { s with following := pointer :: s.following })) :
    Covers s report (whileFollowing pointer work s) := by
  rw [whileFollowing, if_neg entered]
  revert covered
  cases work { s with following := pointer :: s.following } with
  | ok found t =>
    intro given
    obtain ⟨kept, sound, exact, sealing⟩ := given
    exact .ok (by simp [kept]) sound exact sealing
  | error e t =>
    intro given
    rcases given with _ | ⟨kept, faulty, grown, sealing⟩
    exact .error (by simp [kept]) faulty grown sealing

end Reader

namespace CodeModule
open Reader
variable (m : CodeModule)

def report (side : Side) (start : Waypoint) : Report where
  finds c := m.Leads side start fun place => m.Yields side place c
  faulty := m.Leads side start m.Fault
  seals pointer := m.Leads side start fun place => place.type = pointer ∧ m.Seals place

def partReport (side : Side) (place : Waypoint) (part : Nat × NodeId) : Report :=
  let next (size : Nat) : Waypoint :=
    ⟨place.type :: place.trail, side.reach place.about part.1 size, part.2⟩
  { finds := fun c => ∃ size, m.SizeIs part.2 size ∧ (m.report side (next size)).finds c
    faulty := (∀ size, ¬ m.SizeIs part.2 size) ∨
      ∃ size, m.SizeIs part.2 size ∧ (m.report side (next size)).faulty
    seals := fun pointer =>
      ∃ size, m.SizeIs part.2 size ∧ (m.report side (next size)).seals pointer }

private theorem leads_of_not_opens {side : Side} {start : Waypoint} {kind : Waypoint → Prop}
    (closed : ∀ target, ¬ m.Opens start target) : m.Leads side start kind ↔ kind start := by
  rw [leads_iff]
  constructor
  · intro given
    rcases given with here | ⟨_, ⟨opened, _⟩, _⟩
    · exact here
    · exact absurd opened (closed _)
  · exact .inl

theorem leads_of_opens {side : Side} {start : Waypoint} {kind : Waypoint → Prop} {target : NodeId}
    {node : TypeNode} (opened : m.Opens start target) (found : m.types.get? target = some node) :
    m.Leads side start kind ↔ kind start ∨ ∃ part ∈ node.parts target, ∃ size,
      m.SizeIs part.2 size ∧
      m.Leads side ⟨start.type :: start.trail, side.reach start.about part.1 size, part.2⟩ kind := by
  rw [leads_iff]
  refine or_congr_right ⟨?_, ?_⟩
  · intro given
    obtain ⟨_, ⟨opened', found', inside, sized⟩, leads⟩ := given
    obtain rfl : target = _ := by simpa using opened.1.symm.trans opened'.1
    obtain rfl : node = _ := Option.some.inj (found.symm.trans found')
    exact ⟨_, inside, _, sized, leads⟩
  · intro given
    obtain ⟨part, inside, size, sized, leads⟩ := given
    exact ⟨_, .part opened found inside sized, leads⟩

theorem typeSize_eq_ok_iff {id : NodeId} {size : Nat} :
    m.typeSize id = .ok size ↔ m.SizeIs id size := by
  unfold typeSize sizes SizeIs
  cases m.isa.sizes? with
  | none => simp
  | some words => simpa using TypeTable.sizeOf_eq_ok_iff

theorem SizeIs.unique {m : CodeModule} {id : NodeId} {a b : Nat} (left : m.SizeIs id a)
    (right : m.SizeIs id b) : a = b :=
  Except.ok.inj (((typeSize_eq_ok_iff m).mpr left).symm.trans ((typeSize_eq_ok_iff m).mpr right))

private theorem readPart_covers {side : Side} {place : Waypoint} {part : Nat × NodeId}
    {go : Side → TypeVar → NodeId → Reader (List Constraint)} {s : Reading}
    (goes : ∀ about type, Covers s
      (m.report side ⟨place.type :: place.trail, about, type⟩) (go side about type s)) :
    Covers s (m.partReport side place part) (m.readPart go side place.about part s) := by
  unfold readPart reached
  cases measured : m.typeSize part.2 with
  | error e =>
    have unsized : ∀ size, ¬ m.SizeIs part.2 size := by
      intro size sized
      rw [← typeSize_eq_ok_iff, measured] at sized
      contradiction
    exact throw_covers e (.inl unsized)
  | ok size =>
    have sized := (typeSize_eq_ok_iff m).mp measured
    have only (holds : Report → Prop) :
        holds (m.report side ⟨place.type :: place.trail, side.reach place.about part.1 size, part.2⟩) ↔
          ∃ n, m.SizeIs part.2 n ∧ holds (m.report side
            ⟨place.type :: place.trail, side.reach place.about part.1 n, part.2⟩) := by
      refine ⟨fun here => ⟨size, sized, here⟩, ?_⟩
      intro given
      obtain ⟨n, same, here⟩ := given
      exact sized.unique same ▸ here
    refine (goes (side.reach place.about part.1 size) part.2).congr (fun c => only (·.finds c)) ?_
      (fun p => only (·.seals p))
    exact (only (·.faulty)).trans (or_iff_right fun unsized => unsized size sized).symm

theorem fault_of_opens {place : Waypoint} {target : NodeId} {node : TypeNode}
    (opened : m.Opens place target) (found : m.types.get? target = some node) :
    m.Fault place ↔ ∃ part ∈ node.parts target, ∀ size, ¬ m.SizeIs part.2 size := by
  have same {target' : NodeId} (other : m.Opens place target') : target = target' := by
    simpa using opened.1.symm.trans other.1
  constructor
  · intro fault
    rcases fault with absent | byValue | byValue | byValue | ⟨other, absent⟩ |
      ⟨other, found', inside, supported, unsized⟩ | ⟨other, found', inside, unsupported⟩
    · simp [opened.1] at absent
    · simp [opened.1] at byValue
    · simp [opened.1] at byValue
    · simp [opened.1] at byValue
    · obtain rfl := same other
      simp [found] at absent
    · obtain rfl := same other
      obtain rfl := Option.some.inj (found.symm.trans found')
      refine ⟨_, inside, fun size => ?_⟩
      intro given
      obtain ⟨words, supported', sized⟩ := given
      obtain rfl := Option.some.inj (supported.symm.trans supported')
      exact unsized size sized
    · obtain rfl := same other
      obtain rfl := Option.some.inj (found.symm.trans found')
      refine ⟨_, inside, fun size => ?_⟩
      intro given
      obtain ⟨words, supported, _⟩ := given
      simp [unsupported] at supported
  · intro given
    obtain ⟨part, inside, unsized⟩ := given
    cases supported : m.isa.sizes? with
    | none => exact .unsupported opened found inside supported
    | some words =>
      exact .unsized opened found inside supported fun size sized =>
        unsized size ⟨words, supported, sized⟩

private theorem report_of_parts {side : Side} {place : Waypoint} {target : NodeId} {node : TypeNode}
    (opened : m.Opens place target) (found : m.types.get? target = some node)
    (solid : node.parts target ≠ []) {s : Reading}
    {result : EStateM.Result Error Reading (List Constraint)}
    (covered : Covers s (.any (node.parts target) (m.partReport side place)) result) :
    Covers s (m.report side place) result := by
  have unsealed : ¬ m.Seals place := by
    intro given
    rcases given with bare | ⟨opened', found', hollow⟩
    · simp [opened.1] at bare
    · obtain rfl : target = _ := by simpa using opened.1.symm.trans opened'.1
      obtain rfl : node = _ := Option.some.inj (found.symm.trans found')
      exact solid hollow
  refine covered.congr (fun c => ?_) ?_ (fun p => ?_)
  · have silent : ¬ m.Yields side place c := by
      intro given
      rcases given with ⟨found', named⟩ | sealing
      · obtain rfl : _ = TypeNode.pointer _ := Option.some.inj (found'.symm.trans opened.1)
        cases named
      · exact unsealed sealing
    exact ((leads_of_opens m opened found).trans (or_iff_right silent)).symm
  · refine Iff.trans ?_ ((leads_of_opens m opened found).trans
      (or_congr_left (fault_of_opens m opened found))).symm
    simp only [Report.any, partReport, report, and_or_left, exists_or]
  · exact ((leads_of_opens m opened found).trans (or_iff_right fun here => unsealed here.2)).symm

private theorem sealed_covers {side : Side} {place : Waypoint} {pointee : Option NodeId}
    {s : Reading}
    (found : m.types.get? place.type = some (.pointer pointee)) (sealing : m.Seals place)
    (ends : ∀ kind, m.Leads side place kind ↔ kind place) (sound : ¬ m.Fault place) :
    Covers s (m.report side place) (readSealed side place.about place.type s) := by
  refine readSealed_covers side place.about place.type ?_ (fun c => ?_) (fun p => ?_)
  · exact (ends _).not.mpr sound
  · refine (ends _).trans ⟨?_, ?_⟩
    · intro given
      rcases given with ⟨found', named⟩ | _
      · obtain rfl : _ = TypeNode.pointer _ := Option.some.inj (found'.symm.trans found)
        cases named
      · rfl
    · intro same
      subst same
      exact .pointer sealing
  · exact (ends _).trans ⟨fun here => here.1.symm, fun same => ⟨same.symm, sealing⟩⟩

private theorem readPointee_covers {side : Side} {place : Waypoint} {target : NodeId}
    {go : Side → TypeVar → NodeId → Reader (List Constraint)} {s : Reading}
    (opened : m.Opens place target)
    (goes : ∀ t, t.following = s.following → ∀ about type, Covers t
      (m.report side ⟨place.type :: place.trail, about, type⟩) (go side about type t)) :
    Covers s (m.report side place) (m.readPointee go side place.about place.type target s) := by
  have single {node : TypeNode} (found : m.types.get? target = some node)
      (whole : node.parts target = [(0, target)]) :
      Covers s (m.report side place) (m.readPart go side place.about (0, target) s) := by
    refine report_of_parts m opened found (by simp [whole]) ?_
    refine (readPart_covers m (goes s rfl)).congr ?_ ?_ ?_ <;> simp [Report.any, whole]
  have hollow {node : TypeNode} (found : m.types.get? target = some node)
      (hollow : node.parts target = []) :
      Covers s (m.report side place) (readSealed side place.about place.type s) := by
    refine sealed_covers m opened.1 (.hollow opened found hollow) (fun kind => ?_) ?_
    · simp [leads_of_opens m opened found, hollow]
    · simp [fault_of_opens m opened found, hollow]
  unfold readPointee
  cases found : m.types.get? target with
  | none => exact throw_covers _ ((leads_iff m).mpr (.inl (.lost opened found)))
  | some node =>
    cases node with
    | void | function => exact hollow found rfl
    | struct size fields =>
      cases fields with
      | nil => exact hollow found rfl
      | cons field rest =>
        refine report_of_parts m opened found (List.cons_ne_nil field rest) ?_
        exact collect_covers _ _ _ s fun part _ t kept => readPart_covers m (goes t kept)
    | bool | char | int | float | unknown | pointer | array => exact single found rfl

theorem not_fault_of_closed {place : Waypoint} {node : TypeNode}
    (found : m.types.get? place.type = some node)
    (simple : node.kind ≠ "array" ∧ node.kind ≠ "struct" ∧ node.kind ≠ "function")
    (closed : ∀ target, ¬ m.Opens place target) : ¬ m.Fault place := by
  intro given
  rcases given with absent | byValue | byValue | byValue | ⟨opened, _⟩ | ⟨opened, _⟩ | ⟨opened, _⟩
  · simp [found] at absent
  · exact simple.1 (Option.some.inj (found.symm.trans byValue) ▸ rfl)
  · exact simple.2.1 (Option.some.inj (found.symm.trans byValue) ▸ rfl)
  · exact simple.2.2 (Option.some.inj (found.symm.trans byValue) ▸ rfl)
  all_goals exact closed _ opened

private theorem settled_covers {side : Side} {place : Waypoint} {node : TypeNode} {s : Reading}
    (found : m.types.get? place.type = some node)
    (closed : ∀ target, node = .pointer target → target ≠ none ∧ place.type ∈ place.trail)
    (simple : node.kind ≠ "array" ∧ node.kind ≠ "struct" ∧ node.kind ≠ "function")
    (atoms : List Constraint)
    (exact : ∀ c, c ∈ atoms ↔ ∃ name, node.IsNamed name ∧ c = side.order place.about ⟨name, []⟩) :
    Covers s (m.report side place) ((pure atoms : Reader (List Constraint)) s) := by
  have shut : ∀ target, ¬ m.Opens place target := fun target opened =>
    opened.2 (closed _ (Option.some.inj (found.symm.trans opened.1))).2
  have ends {kind : Waypoint → Prop} : m.Leads side place kind ↔ kind place :=
    leads_of_not_opens m shut
  have unsealed : ¬ m.Seals place := by
    intro given
    rcases given with bare | ⟨opened, _, _⟩
    · exact (closed none (Option.some.inj (found.symm.trans bare))).1 rfl
    · exact shut _ opened
  refine return_covers atoms (fun faulty => ?_) (fun c => ?_) (fun p sealing => ?_)
  · exact not_fault_of_closed m found simple shut (ends.mp faulty)
  · rw [exact]
    refine Iff.trans ⟨?_, ?_⟩ ends.symm
    · intro given
      obtain ⟨name, named, rfl⟩ := given
      exact .scalar found named
    · intro given
      rcases given with ⟨found', named⟩ | sealing
      · obtain rfl := Option.some.inj (found.symm.trans found')
        exact ⟨_, named, rfl⟩
      · exact absurd sealing unsealed
  · exact unsealed (ends.mp sealing).2

private theorem readType_covers {side : Side} {place : Waypoint}
    {go : Side → TypeVar → NodeId → Reader (List Constraint)} {s : Reading}
    (here : s.following = place.trail)
    (goes : ∀ target, m.Opens place target → ∀ t, t.following = place.type :: place.trail →
      ∀ about type, Covers t
        (m.report side ⟨place.type :: place.trail, about, type⟩) (go side about type t)) :
    Covers s (m.report side place) (m.readType go side place.about place.type s) := by
  have fails (e : Error) (fault : m.Fault place) :
      Covers s (m.report side place) ((throw e : Reader (List Constraint)) s) :=
    throw_covers e ((leads_iff m).mpr (.inl fault))
  have scalar {node : TypeNode} {name : String} (found : m.types.get? place.type = some node)
      (closed : ∀ target, node ≠ .pointer target)
      (simple : node.kind ≠ "array" ∧ node.kind ≠ "struct" ∧ node.kind ≠ "function")
      (named : node.atom? = some name) : Covers s (m.report side place)
        ((pure [side.order place.about ⟨name, []⟩] : Reader (List Constraint)) s) := by
    refine settled_covers m found (fun target same => absurd same (closed target)) simple _ ?_
    simp [TypeNode.isNamed_iff, named]
  unfold readType
  cases found : m.types.get? place.type with
  | none => exact fails _ (.missing found)
  | some node =>
    cases node with
    | array => exact fails _ (.array found)
    | struct => exact fails _ (.struct found)
    | function => exact fails _ (.function found)
    | unknown size =>
      refine settled_covers m found (by simp) (by simp [TypeNode.kind]) [] ?_
      simp [TypeNode.isNamed_iff, TypeNode.atom?]
    | void => exact scalar found (by simp) (by simp [TypeNode.kind]) rfl
    | bool => exact scalar found (by simp) (by simp [TypeNode.kind]) rfl
    | char size =>
      by_cases narrow : size = 1
      · subst narrow
        exact scalar found (by simp) (by simp [TypeNode.kind]) rfl
      · have named : (TypeNode.char size).atom? = some ("char" ++ Text.bitsText size) := by
          simp [TypeNode.atom?]
        simp only [named]
        exact scalar found (by simp) (by simp [TypeNode.kind]) named
    | int size signed => exact scalar found (by simp) (by simp [TypeNode.kind]) rfl
    | float size => exact scalar found (by simp) (by simp [TypeNode.kind]) rfl
    | pointer pointee =>
      cases pointee with
      | none =>
        have shut (target : NodeId) : ¬ m.Opens place target := by
          intro given
          obtain ⟨found', _⟩ := given
          simp [found] at found'
        exact sealed_covers m found (.bare found) (fun _ => leads_of_not_opens m shut)
          (not_fault_of_closed m found (by simp [TypeNode.kind]) shut)
      | some target =>
        by_cases inside : place.type ∈ place.trail
        · have stays : whileFollowing place.type (m.readPointee go side place.about place.type target)
              s = (pure [] : Reader (List Constraint)) s := by
            rw [whileFollowing, if_pos (here ▸ inside)]
            rfl
          simp only [stays]
          refine settled_covers m found (fun _ same => ?_) (by simp [TypeNode.kind]) [] ?_
          · exact ⟨by simp [← TypeNode.pointer.inj same], inside⟩
          · simp [TypeNode.isNamed_iff, TypeNode.atom?]
        · have opened : m.Opens place target := ⟨found, inside⟩
          refine whileFollowing_covers (here ▸ inside) ?_
          refine readPointee_covers m opened fun t kept => ?_
          exact goes target opened t (kept.trans (by rw [here]))

/-- The pointers being followed are distinct pointers of the table. -/
def Tracks (trail : List NodeId) : Prop := trail.Nodup ∧ trail ⊆ m.types.keys

theorem Tracks.length_le {m : CodeModule} {trail : List NodeId} (tracked : m.Tracks trail) :
    trail.length ≤ m.types.size := by
  have bound := (tracked.1.subperm tracked.2).length_le
  simpa [OrdMap.size, OrdMap.keys] using bound

theorem Tracks.cons {m : CodeModule} {place : Waypoint} {target : NodeId}
    (tracked : m.Tracks place.trail) (opened : m.Opens place target) :
    m.Tracks (place.type :: place.trail) := by
  refine ⟨List.nodup_cons.mpr ⟨opened.2, tracked.1⟩, ?_⟩
  exact List.cons_subset.mpr ⟨(OrdMap.mem_keys m.types _).mpr ⟨_, opened.1⟩, tracked.2⟩

/-- Reading follows walks to their ends: the depth is enough for all pointers of the table that
the walk is not inside of yet. -/
theorem readTo_covers (side : Side) (depth : Nat) (place : Waypoint) (s : Reading)
    (here : s.following = place.trail) (tracked : m.Tracks place.trail)
    (enough : m.types.size ≤ depth + place.trail.length) :
    Covers s (m.report side place) (m.readTo depth side place.about place.type s) := by
  induction depth generalizing place s with
  | zero =>
    refine readType_covers m here fun target opened => ?_
    have bound := (tracked.cons opened).length_le
    simp only [List.length_cons] at bound
    omega
  | succ depth ih =>
    refine readType_covers m here fun target opened t kept about type => ?_
    refine ih ⟨place.type :: place.trail, about, type⟩ t kept (tracked.cons opened) ?_
    simp only [List.length_cons]
    omega

/-- Where the walks of a prototype start, and on which side their variables stand. -/
inductive Start (name : String) (ret : Option NodeId) (params : List (Option NodeId)) :
    Side → Waypoint → Prop where
  | argument {i : Nat} {id : NodeId} (declared : params[i]? = some (some id)) :
    Start name ret params .left ⟨[], ⟨name, [.input (UInt64.ofNat i)]⟩, id⟩
  | result {id : NodeId} (declared : ret = some id) :
    Start name ret params .right ⟨[], ⟨name, [.output]⟩, id⟩

def prototypeReport (name : String) (ret : Option NodeId) (params : List (Option NodeId)) :
    Report where
  finds c := ∃ side start, Start name ret params side start ∧ (m.report side start).finds c
  faulty := ∃ side start, Start name ret params side start ∧ (m.report side start).faulty
  seals p := ∃ side start, Start name ret params side start ∧ (m.report side start).seals p

private theorem readSlot_covers (name : String) (side : Side) (label : Label) (slot : Option NodeId)
    (s : Reading) (idle : s.following = []) :
    Covers s (.any slot.toList fun id => m.report side ⟨[], ⟨name, [label]⟩, id⟩)
      (m.readSlot name side (label, slot) s) := by
  cases slot with
  | none => exact return_covers [] (by simp [Report.any]) (by simp [Report.any]) (by simp [Report.any])
  | some id =>
    have whole := readTo_covers m side m.types.size ⟨[], ⟨name, [label]⟩, id⟩ s idle
      ⟨List.nodup_nil, by simp⟩ (by simp)
    refine whole.congr ?_ ?_ ?_ <;> simp [Report.any]

theorem exists_start_iff {name : String} {ret : Option NodeId} {params : List (Option NodeId)}
    (holds : Side → Waypoint → Prop) :
    (∃ side start, Start name ret params side start ∧ holds side start) ↔
      (∃ slot ∈ params.mapIdx fun i param => (Label.input (UInt64.ofNat i), param),
        ∃ id ∈ slot.2.toList, holds .left ⟨[], ⟨name, [slot.1]⟩, id⟩) ∨
      ∃ id ∈ ret.toList, holds .right ⟨[], ⟨name, [.output]⟩, id⟩ := by
  constructor
  · intro given
    rcases given with ⟨_, _, ⟨declared⟩ | ⟨declared⟩, here⟩
    · rename_i i id
      obtain ⟨bound, same⟩ := List.getElem?_eq_some_iff.mp declared
      refine .inl ⟨(.input (UInt64.ofNat i), some id), ?_, id, by simp, here⟩
      exact List.mem_mapIdx.mpr ⟨i, bound, by rw [same]⟩
    · exact .inr ⟨_, by simp [declared], here⟩
  · intro given
    rcases given with ⟨slot, listed, id, present, here⟩ | ⟨id, present, here⟩
    · obtain ⟨i, bound, rfl⟩ := List.mem_mapIdx.mp listed
      have declared : params[i]? = some (some id) := by
        have same : params[i] = some id := Option.mem_toList.mp present
        rw [List.getElem?_eq_getElem bound, same]
      exact ⟨_, _, .argument declared, here⟩
    · exact ⟨_, _, .result (Option.mem_toList.mp present), here⟩

theorem readPrototype_covers (name : String) (ret : Option NodeId) (params : List (Option NodeId))
    (s : Reading) (idle : s.following = []) :
    ∃ outcome, Covers s (m.prototypeReport name ret params) outcome ∧
      m.readPrototype name ret params s =
        match outcome with
        | .ok found t => .ok (OrdSet.ofList found) t
        | .error e t => .error e t := by
  let inputs := params.mapIdx fun i param => (Label.input (UInt64.ofNat i), param)
  have arguments := collect_covers (m.readSlot name .left)
    (fun slot => .any slot.2.toList fun id => m.report .left ⟨[], ⟨name, [slot.1]⟩, id⟩) inputs s
    (fun slot _ t kept => readSlot_covers m name .left slot.1 slot.2 t (kept.trans idle))
  have result (t : Reading) (kept : t.following = s.following) :=
    readSlot_covers m name .right .output ret t (kept.trans idle)
  refine ⟨_, (append_covers arguments result).congr (fun c => ?_) ?_ (fun p => ?_), ?_⟩
  · exact (exists_start_iff fun side start => (m.report side start).finds c).symm
  · exact (exists_start_iff fun side start => (m.report side start).faulty).symm
  · exact (exists_start_iff fun side start => (m.report side start).seals p).symm
  · simp only [readPrototype, bind, EStateM.bind]
    cases collect (m.readSlot name .left) inputs s with
    | error e t => rfl
    | ok found t =>
      simp only
      cases m.readSlot name .right (.output, ret) t with
      | error e u => rfl
      | ok more u => rfl

theorem readFunction_eq_readPrototype {function : NodeId} {f : Routine} {type : NodeId}
    {ret : Option NodeId} {params : List (Option NodeId)}
    (recorded : m.prototypes.get? function = some type) (known : m.function? function = some f)
    (prototype : m.types.get? type = some (.function ret params)) (s : Reading) :
    m.readFunction function s =
      match m.readPrototype (m.functionName f) ret params s with
      | .ok constraints t => .ok (some (m.functionName f, constraints)) t
      | .error e t => .error e t := by
  simp only [readFunction, recorded, known, prototype, bind, EStateM.bind]
  cases m.readPrototype (m.functionName f) ret params s <;> rfl

def Visits (name : String) (ret : Option NodeId) (params : List (Option NodeId)) (side : Side)
    (place : Waypoint) : Prop :=
  ∃ start, Start name ret params side start ∧ ReflTransGen (m.Step side) start place

theorem exists_visits_iff {name : String} {ret : Option NodeId} {params : List (Option NodeId)}
    (kind : Side → Waypoint → Prop) :
    (∃ side start, Start name ret params side start ∧ m.Leads side start (kind side)) ↔
      ∃ side place, m.Visits name ret params side place ∧ kind side place := by
  constructor
  · intro given
    obtain ⟨side, start, starts, place, walk, here⟩ := given
    exact ⟨side, place, ⟨start, starts, walk⟩, here⟩
  · intro given
    obtain ⟨side, place, ⟨start, starts, walk⟩, here⟩ := given
    exact ⟨side, start, starts, place, walk, here⟩

/-- Reading a function with a prototype on a fresh state fails exactly if some walk comes to a
fault. Otherwise it gives the function's name with exactly the constraints that walks yield where
they end. -/
theorem readFunction_eq_walks (function : NodeId) (f : Routine) (type : NodeId)
    (ret : Option NodeId) (params : List (Option NodeId))
    (recorded : m.prototypes.get? function = some type) (known : m.function? function = some f)
    (prototype : m.types.get? type = some (.function ret params)) :
    ((∃ e s, m.readFunction function {} = .error e s) ↔
      ∃ side place, m.Visits (m.functionName f) ret params side place ∧ m.Fault place) ∧
    ((∀ side place, m.Visits (m.functionName f) ret params side place → ¬ m.Fault place) →
      ∃ constraints s,
        m.readFunction function {} = .ok (some (m.functionName f, constraints)) s ∧
        ∀ c, c ∈ constraints ↔ ∃ side place,
          m.Visits (m.functionName f) ret params side place ∧ m.Yields side place c) := by
  obtain ⟨outcome, covered, read⟩ := readPrototype_covers m (m.functionName f) ret params {} rfl
  rw [readFunction_eq_readPrototype m recorded known prototype, read]
  cases covered with
  | ok kept sound exact sealing =>
    have clear := (exists_visits_iff m fun _ => m.Fault).not.mp sound
    refine ⟨iff_of_false (by simp) clear, fun _ => ⟨_, _, rfl, fun c => ?_⟩⟩
    rw [OrdSet.mem_ofList, exact]
    exact exists_visits_iff m fun side place => m.Yields side place c
  | error kept faulty grown sealing =>
    have broken := (exists_visits_iff m fun _ => m.Fault).mp faulty
    refine ⟨iff_of_true ⟨_, _, rfl⟩ broken, fun clear => ?_⟩
    obtain ⟨side, place, visited, fault⟩ := broken
    exact absurd fault (clear side place visited)

/-- A function that takes a list of numbers, each node holding the next one, and returns an
address of which nothing is known. -/
def listReader : CodeModule where
  name := "list"
  isa := .x64
  functions := [⟨⟨6⟩, ["length"], ∅, ∅⟩]
  types := OrdMap.ofList [(⟨1⟩, .int 4 true), (⟨2⟩, .pointer (some ⟨3⟩)),
    (⟨3⟩, .struct 16 [(0, ⟨1⟩), (8, ⟨2⟩)]), (⟨4⟩, .pointer none),
    (⟨5⟩, .function (some ⟨4⟩) [some ⟨2⟩])]
  prototypes := OrdMap.ofList [(⟨6⟩, ⟨5⟩)]

/-- The list is followed once: its walks end at the first number, and at the pointer that the
first node holds. -/
theorem readFunction_eq_walks_list :
    listReader.prototypes.get? ⟨6⟩ = some ⟨5⟩ ∧
    ∃ constraints s, listReader.readFunction ⟨6⟩ {} = .ok (some ("length", constraints)) s ∧
      constraints.size = 2 ∧
      ∀ c, c ∈ constraints ↔ ∃ side place,
        listReader.Visits "length" (some ⟨4⟩) [some ⟨2⟩] side place ∧
          listReader.Yields side place c := by
  obtain ⟨fails, finds⟩ := readFunction_eq_walks listReader ⟨6⟩ ⟨⟨6⟩, ["length"], ∅, ∅⟩ ⟨5⟩
    (some ⟨4⟩) [some ⟨2⟩] rfl rfl rfl
  have count : ((listReader.readFunction ⟨6⟩).run' {}).join.map (fun found => found.2.size) =
      some 2 := by decide +kernel
  delta EStateM.run' EStateM.run at count
  have clear : ¬ ∃ e s, listReader.readFunction ⟨6⟩ {} = .error e s := by
    intro given
    obtain ⟨e, s, failed⟩ := given
    rw [failed] at count
    contradiction
  obtain ⟨constraints, s, read, exact⟩ := finds fun side place visited fault =>
    clear (fails.mpr ⟨side, place, visited, fault⟩)
  rw [read] at count
  exact ⟨rfl, constraints, s, read, Option.some.inj count, exact⟩

end CodeModule
end TypeRecovery
