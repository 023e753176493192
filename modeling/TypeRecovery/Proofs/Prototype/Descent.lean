import Mathlib.Logic.Function.Iterate
import TypeRecovery.Proofs.Prototype.Independence
import TypeRecovery.Proofs.Prototype.Walks

/-! Reading a function call by call. A call is entered or left at each step, and the calls that wait for
others are kept on a stack, however deep they go. Where no array contains itself, the descent arrives at
what the function is read as: the size of an array ends at an element that is no array, and a pointer is
followed only where no open call follows it. -/
namespace TypeRecovery
open Relation

namespace TypeTable
variable {table : TypeTable}

def pointers (table : TypeTable) : List NodeId :=
  (table.entries.filter fun entry => entry.2.kind = "pointer").map Prod.fst

theorem mem_pointers {p : NodeId} {pointee : Option NodeId}
    (present : table.get? p = some (.pointer pointee)) : p ∈ table.pointers := by
  have listed : (p, TypeNode.pointer pointee) ∈ table.entries :=
    (OrdMap.get?_eq_some_iff table p _).mp present
  exact List.mem_map_of_mem (List.mem_filter.mpr ⟨listed, by simp [TypeNode.kind]⟩)

theorem length_pointers_le (table : TypeTable) : table.pointers.length ≤ table.size := by
  rw [pointers, List.length_map]
  exact List.length_filter_le _ _

end TypeTable

/-- The arguments and the result of a prototype in the order they are read, with their sides. -/
def prototypeSlots (ret : Option NodeId) (params : List (Option NodeId)) :
    List (Side × Label × Option NodeId) :=
  (params.mapIdx fun i param => (.input (UInt64.ofNat i), param)).map (Prod.mk .left) ++
    [(.right, .output, ret)]

/-- A call that waits for one that it made. -/
inductive Frame where
  /-- What a pointer leads to is being read. -/
  | following (pointer : NodeId)
  /-- One part of what a pointer leads to is being read. -/
  | part (side : Side) (about : TypeVar) (rest : List (Nat × NodeId))
  /-- The size of a part is being taken, before it is read. -/
  | sizing (side : Side) (about : TypeVar) (part : Nat × NodeId) (rest : List (Nat × NodeId))
  /-- The size of an element is being taken. -/
  | counting (count : Nat)
  /-- An argument or the result is being read. -/
  | slot (name : String) (rest : List (Side × Label × Option NodeId))
  | prototype (name : String)

namespace Frame

def pointer? : Frame → Option NodeId
  | following pointer => some pointer
  | _ => none

/-- The pointers that open calls follow, the innermost first. -/
def followed (waiting : List Frame) : List NodeId := waiting.filterMap pointer?

end Frame

/-- The call that is entered next, or how the last one was left. -/
inductive Turn where
  | function (id : NodeId)
  | slots (name : String) (slots : List (Side × Label × Option NodeId))
  | type (side : Side) (about : TypeVar) (id : NodeId)
  | pointee (side : Side) (about : TypeVar) (pointer target : NodeId)
  | parts (side : Side) (about : TypeVar) (parts : List (Nat × NodeId))
  | size (pointerSize : Nat) (id : NodeId)
  | done
  | sized (size : Nat)
  | failed (e : Error)
  | finished (outcome : Except Error (Option (String × ConstraintSet)))

structure Descent where
  turn : Turn
  waiting : List Frame
  reading : Reading
  found : List Constraint

namespace Descent

def start (function : NodeId) (s : Reading) : Descent := ⟨.function function, [], s, []⟩

def find (c : Descent) (found : Constraint) : Descent :=
  { c with turn := .done, found := c.found ++ [found] }

def findSealed (c : Descent) (side : Side) (about : TypeVar) (pointer : NodeId) : Descent :=
  { c.find (side.order about (Reading.sealedAtom pointer)) with
    reading := { c.reading with sealedPointers := c.reading.sealedPointers.insert pointer } }

def pass (c : Descent) (notice : Notice) : Descent :=
  { c with turn := .finished (.ok none),
           reading := { c.reading with notices := c.reading.notices ++ [notice] } }

def release (c : Descent) (pointer : NodeId) : Descent :=
  { c with reading := { c.reading with following := c.reading.following.erase pointer } }

/-- The innermost open call goes on after the one that it waited for. -/
def leave (c : Descent) : Descent :=
  match c.waiting with
  | .following pointer :: waiting => { c with waiting := waiting }.release pointer
  | .part side about rest :: waiting => { c with turn := .parts side about rest, waiting := waiting }
  | .slot name rest :: waiting => { c with turn := .slots name rest, waiting := waiting }
  | .prototype name :: waiting =>
    { c with turn := .finished (.ok (some (name, OrdSet.ofList c.found))), waiting := waiting }
  | _ => c

def leaveSized (c : Descent) (size : Nat) : Descent :=
  match c.waiting with
  | .counting count :: waiting => { c with turn := .sized (size * count), waiting := waiting }
  | .sizing side about part rest :: waiting =>
    { c with turn := .type side (side.reach about part.1 size) part.2,
             waiting := .part side about rest :: waiting }
  | _ => c

/-- A failure ends all open calls, and no pointer is followed after them. -/
def leaveFailed (c : Descent) (e : Error) : Descent :=
  match c.waiting with
  | .following pointer :: waiting => { c with waiting := waiting }.release pointer
  | .prototype _ :: waiting => { c with turn := .finished (.error e), waiting := waiting }
  | _ :: waiting => { c with waiting := waiting }
  | [] => c

inductive Ends : Descent → EStateM.Result Error Reading (Option (String × ConstraintSet)) → Prop where
  | ok {read : Option (String × ConstraintSet)} {t : Reading} {found : List Constraint} :
    Ends ⟨.finished (.ok read), [], t, found⟩ (.ok read t)
  | error {e : Error} {t : Reading} {found : List Constraint} :
    Ends ⟨.finished (.error e), [], t, found⟩ (.error e t)

theorem Ends.turn_eq {c : Descent}
    {result : EStateM.Result Error Reading (Option (String × ConstraintSet))} (ends : c.Ends result) :
    c.turn = .finished (outcome result) := by
  cases ends <;> rfl

end Descent

namespace Reader

/-- A result with a change to the state it comes with. -/
def afterwards (change : Reading → Reading) :
    EStateM.Result Error Reading (List Constraint) → EStateM.Result Error Reading (List Constraint)
  | .ok found t => .ok found (change t)
  | .error e t => .error e (change t)

private theorem afterwards_id (result : EStateM.Result Error Reading (List Constraint)) :
    afterwards id result = result := by
  cases result <;> rfl

private theorem whileFollowing_of_notMem {pointer : NodeId} {work : Reader (List Constraint)}
    {s : Reading}
    (apart : pointer ∉ s.following) : whileFollowing pointer work s =
      afterwards (fun t => { t with following := t.following.erase pointer })
        (work { s with following := pointer :: s.following }) := by
  rw [whileFollowing, if_neg apart]
  cases work { s with following := pointer :: s.following } <;> rfl

private theorem collect_singleton {α : Type} (part : α → Reader (List Constraint)) (a : α) :
    collect part [a] = part a := by
  simp [collect]

private theorem collect_append {α : Type} (part : α → Reader (List Constraint))
    (first second : List α) :
    collect part (first ++ second) = (do
      let found ← collect part first
      let more ← collect part second
      return found ++ more) := by
  induction first with
  | nil => simp only [List.nil_append, collect, pure_bind, bind_pure]
  | cons a rest ih =>
    simp only [List.cons_append, collect, ih, bind_assoc, pure_bind, List.append_assoc]

private theorem collect_map {α β : Type} (part : β → Reader (List Constraint)) (f : α → β)
    (l : List α) :
    collect part (l.map f) = collect (fun a => part (f a)) l := by
  induction l with
  | nil => rfl
  | cons a rest ih => simp only [List.map_cons, collect, ih]

end Reader

namespace CodeModule
open Descent
variable (m : CodeModule)

def enterFunction (c : Descent) (function : NodeId) : Descent :=
  match m.prototypes.get? function with
  | none => { c with turn := .finished (.ok none) }
  | some type =>
    match m.function? function with
    | none => c.pass (.unknownFunction function)
    | some f =>
      let name := m.functionName f
      match m.types.get? type with
      | some (.function ret params) =>
        { c with turn := .slots name (prototypeSlots ret params),
                 waiting := .prototype name :: c.waiting }
      | other => c.pass (.malformedPrototype name type ((other.map TypeNode.kind).getD "missing"))

def enterSlots (c : Descent) (name : String) : List (Side × Label × Option NodeId) → Descent
  | [] => { c with turn := .done }
  | (_, _, none) :: rest => { c with turn := .slots name rest }
  | (side, label, some id) :: rest =>
    { c with turn := .type side ⟨name, [label]⟩ id, waiting := .slot name rest :: c.waiting }

def enterType (c : Descent) (side : Side) (about : TypeVar) (id : NodeId) : Descent :=
  match m.types.get? id with
  | none => { c with turn := .failed (.danglingType id) }
  | some (.unknown _) => { c with turn := .done }
  | some (.array element count) =>
    { c with turn := .failed (.byValueAggregate (TypeNode.array element count).kind id) }
  | some (.struct size fields) =>
    { c with turn := .failed (.byValueAggregate (TypeNode.struct size fields).kind id) }
  | some (.function ret params) =>
    { c with turn := .failed (.undescribable (TypeNode.function ret params).kind id) }
  | some (.pointer none) => c.findSealed side about id
  | some (.pointer (some target)) =>
    if id ∈ c.reading.following then { c with turn := .done }
    else
      { c with turn := .pointee side about id target, waiting := .following id :: c.waiting,
               reading := { c.reading with following := id :: c.reading.following } }
  | some scalar =>
    match scalar.atom? with
    | some atom => c.find (side.order about ⟨atom, []⟩)
    | none => { c with turn := .done }

def enterPointee (c : Descent) (side : Side) (about : TypeVar)
    (pointer target : NodeId) : Descent :=
  match m.types.get? target with
  | none => { c with turn := .failed (.danglingType target) }
  | some node =>
    match node.parts target with
    | [] => c.findSealed side about pointer
    | parts => { c with turn := .parts side about parts }

def enterParts (c : Descent) (side : Side) (about : TypeVar) : List (Nat × NodeId) → Descent
  | [] => { c with turn := .done }
  | part :: rest =>
    match m.sizes with
    | .error e => { c with turn := .failed e }
    | .ok sizes =>
      { c with turn := .size sizes.pointer part.2, waiting := .sizing side about part rest :: c.waiting }

def enterSize (c : Descent) (pointerSize : Nat) (id : NodeId) : Descent :=
  match m.types.get? id with
  | none => { c with turn := .failed (.danglingType id) }
  | some .void => { c with turn := .failed (.unsizedType id) }
  | some (.function _ _) => { c with turn := .failed (.unsizedType id) }
  | some .bool => { c with turn := .sized 1 }
  | some (.char size) => { c with turn := .sized size }
  | some (.int size _) => { c with turn := .sized size }
  | some (.float size) => { c with turn := .sized size }
  | some (.unknown size) => { c with turn := .sized size }
  | some (.struct size _) => { c with turn := .sized size }
  | some (.pointer _) => { c with turn := .sized pointerSize }
  | some (.array element count) =>
    { c with turn := .size pointerSize element, waiting := .counting count :: c.waiting }

/-- Enters or leaves one call. Nothing happens any more when reading is over. -/
def advance (c : Descent) : Descent :=
  match c.turn with
  | .function id => m.enterFunction c id
  | .slots name slots => enterSlots c name slots
  | .type side about id => m.enterType c side about id
  | .pointee side about pointer target => m.enterPointee c side about pointer target
  | .parts side about parts => m.enterParts c side about parts
  | .size pointerSize id => m.enterSize c pointerSize id
  | .done => c.leave
  | .sized size => c.leaveSized size
  | .failed e => c.leaveFailed e
  | .finished _ => c

def Goes (c c' : Descent) : Prop := ∃ steps, m.advance^[steps] c = c'

variable {m} {c c' c'' : Descent} {s t : Reading} {turn turn' next : Turn}

theorem Goes.refl : m.Goes c c := ⟨0, rfl⟩

theorem Goes.trans (first : m.Goes c c') (second : m.Goes c' c'') : m.Goes c c'' := by
  obtain ⟨n, rfl⟩ := first
  obtain ⟨k, rfl⟩ := second
  exact ⟨k + n, Function.iterate_add_apply m.advance k n c⟩

private theorem goes_of_advance (step : m.advance c = c') : m.Goes c c' := ⟨1, step⟩

/-- The calls from a turn on come to a result, whatever waits for them. If it is a good one, another
turn follows. -/
def Arrives (m : CodeModule) (turn : Turn) (s : Reading) (next : Turn) :
    EStateM.Result Error Reading (List Constraint) → Prop
  | .ok more t => ∀ waiting found,
      m.Goes ⟨turn, waiting, s, found⟩ ⟨next, waiting, t, found ++ more⟩
  | .error e t => ∀ waiting found, ∃ rest,
      m.Goes ⟨turn, waiting, s, found⟩ ⟨.failed e, waiting, t, rest⟩

private theorem Arrives.of_advance {result : EStateM.Result Error Reading (List Constraint)}
    (step : ∀ waiting found, m.advance ⟨turn, waiting, s, found⟩ = ⟨turn', waiting, s, found⟩)
    (later : m.Arrives turn' s next result) : m.Arrives turn s next result := by
  have first (waiting : List Frame) (found : List Constraint) :
      m.Goes ⟨turn, waiting, s, found⟩ ⟨turn', waiting, s, found⟩ := ⟨1, step waiting found⟩
  cases result with
  | ok more t => exact fun waiting found => (first waiting found).trans (later waiting found)
  | error e t =>
    intro waiting found
    obtain ⟨rest, goes⟩ := later waiting found
    exact ⟨rest, (first waiting found).trans goes⟩

private theorem arrives_return :
    m.Arrives next s next ((pure [] : Reader (List Constraint)) s) := by
  intro waiting found
  rw [List.append_nil]
  exact .refl

private theorem arrives_throw (e : Error) :
    m.Arrives (.failed e) s next ((throw e : Reader (List Constraint)) s) :=
  fun _ found => ⟨found, .refl⟩

theorem Arrives.append {first second : Reader (List Constraint)} {middle : Turn}
    (before : m.Arrives turn s middle (first s))
    (after : ∀ found t, first s = .ok found t → m.Arrives middle t next (second t)) :
    m.Arrives turn s next ((do
      let found ← first
      let more ← second
      return found ++ more : Reader (List Constraint)) s) := by
  simp only [bind, EStateM.bind]
  cases read : first s with
  | error e t =>
    rw [read] at before
    exact before
  | ok found t =>
    rw [read] at before
    have later := after found t read
    simp only
    cases more : second t with
    | error e u =>
      rw [more] at later
      intro waiting start
      obtain ⟨rest, goes⟩ := later waiting (start ++ found)
      exact ⟨rest, (before waiting start).trans goes⟩
    | ok others u =>
      rw [more] at later
      intro waiting start
      rw [← List.append_assoc]
      exact (before waiting start).trans (later waiting (start ++ found))

/-- All runs from the same place stop at the same place. -/
theorem Goes.eq_of_stops (first : m.Goes c c') (second : m.Goes c c'') (stops : m.advance c' = c')
    (stops' : m.advance c'' = c'') : c' = c'' := by
  obtain ⟨n, rfl⟩ := first
  obtain ⟨k, rfl⟩ := second
  rcases Nat.le_total n k with less | less
  · obtain ⟨more, rfl⟩ := Nat.exists_eq_add_of_le less
    rw [Nat.add_comm, Function.iterate_add_apply]
    exact (Function.iterate_fixed stops more).symm
  · obtain ⟨more, rfl⟩ := Nat.exists_eq_add_of_le less
    rw [Nat.add_comm, Function.iterate_add_apply]
    exact Function.iterate_fixed stops' more

theorem Arrives.unique {result result' : EStateM.Result Error Reading (List Constraint)}
    (first : m.Arrives turn s .done result) (second : m.Arrives turn s .done result') :
    result = result' := by
  cases result with
  | ok found t =>
    cases result' with
    | ok found' t' =>
      have same := (first [] []).eq_of_stops (second [] []) rfl rfl
      simpa [and_comm] using same
    | error e t' =>
      obtain ⟨_, goes⟩ := second [] []
      have same := (first [] []).eq_of_stops goes rfl rfl
      simp at same
  | error e t =>
    obtain ⟨_, goes⟩ := first [] []
    cases result' with
    | ok found' t' =>
      have same := goes.eq_of_stops (second [] []) rfl rfl
      simp at same
    | error e' t' =>
      obtain ⟨_, goes'⟩ := second [] []
      have same := goes.eq_of_stops goes' rfl rfl
      simp only [Descent.mk.injEq, Turn.failed.injEq] at same
      rw [same.1, same.2.2.1]

private theorem Arrives.call_change {callee : Turn} {frame : Frame} {change : Reading → Reading}
    {result : EStateM.Result Error Reading (List Constraint)}
    (enter : ∀ waiting found,
      m.Goes ⟨turn, waiting, s, found⟩ ⟨callee, frame :: waiting, t, found⟩)
    (called : m.Arrives callee t .done result)
    (leave : ∀ waiting u found,
      m.advance ⟨.done, frame :: waiting, u, found⟩ = ⟨next, waiting, change u, found⟩)
    (fail : ∀ e waiting u found,
      m.advance ⟨.failed e, frame :: waiting, u, found⟩ = ⟨.failed e, waiting, change u, found⟩) :
    m.Arrives turn s next (Reader.afterwards change result) := by
  cases result with
  | ok more u =>
    intro waiting found
    exact ((enter waiting found).trans (called _ _)).trans ⟨1, leave waiting u _⟩
  | error e u =>
    intro waiting found
    obtain ⟨kept, goes⟩ := called (frame :: waiting) found
    exact ⟨kept, ((enter waiting found).trans goes).trans ⟨1, fail e waiting u kept⟩⟩

theorem Arrives.call {callee : Turn} {frame : Frame}
    {result : EStateM.Result Error Reading (List Constraint)}
    (enter : ∀ waiting found,
      m.Goes ⟨turn, waiting, s, found⟩ ⟨callee, frame :: waiting, t, found⟩)
    (called : m.Arrives callee t .done result)
    (leave : ∀ waiting u found,
      m.advance ⟨.done, frame :: waiting, u, found⟩ = ⟨next, waiting, u, found⟩)
    (fail : ∀ e waiting u found,
      m.advance ⟨.failed e, frame :: waiting, u, found⟩ = ⟨.failed e, waiting, u, found⟩) :
    m.Arrives turn s next result :=
  Reader.afterwards_id result ▸ Arrives.call_change enter called leave fail

/-- A size is found by going down from array to element. Arrays on the way down are no longer idle, and
none is met again. -/
theorem goes_size (unnested : ∀ id, ¬ TransGen m.types.ElementOf id id) {pointerSize : Nat}
    (idle : List NodeId) (id : NodeId)
    (entered : ∀ x ∈ m.types.keys, x ∉ idle → TransGen m.types.ElementOf x id)
    (waiting : List Frame) (found : List Constraint) :
    m.Goes ⟨.size pointerSize id, waiting, s, found⟩
      (match m.types.sizeWithin pointerSize idle id with
      | .ok size => ⟨.sized size, waiting, s, found⟩
      | .error e => ⟨.failed e, waiting, s, found⟩) := by
  fun_induction TypeTable.sizeWithin m.types pointerSize idle id generalizing waiting with
  | case11 idle id element count present inside ih =>
    have contained : m.types.ElementOf id element := ⟨count, present⟩
    have deeper : ∀ x ∈ m.types.keys, x ∉ idle.erase id → TransGen m.types.ElementOf x element := by
      intro x listed outside
      by_cases here : x = id
      · exact here ▸ .single contained
      · have before : x ∉ idle := fun still => outside ((List.mem_erase_of_ne here).mpr still)
        exact (entered x listed before).tail contained
    have down : m.Goes ⟨.size pointerSize id, waiting, s, found⟩
        ⟨.size pointerSize element, .counting count :: waiting, s, found⟩ :=
      goes_of_advance (by simp only [advance, enterSize, present])
    have measured := down.trans (ih deeper (.counting count :: waiting))
    cases size : m.types.sizeWithin pointerSize (idle.erase id) element with
    | ok n =>
      rw [size] at measured
      exact measured.trans ⟨1, rfl⟩
    | error e =>
      rw [size] at measured
      exact measured.trans ⟨1, rfl⟩
  | case12 idle id element count present outside =>
    -- The array would have been met on the way down to itself.
    have listed : id ∈ m.types.keys := (OrdMap.mem_keys m.types id).mpr ⟨_, present⟩
    exact absurd (entered id listed outside) (unnested id)
  | _ => exact goes_of_advance (by simp only [advance, enterSize, *])

section
variable (unnested : ∀ id, ¬ TransGen m.types.ElementOf id id)
variable {go : Side → TypeVar → NodeId → Reader (List Constraint)} {side : Side} {about : TypeVar}
include unnested

private theorem arrives_part {part : Nat × NodeId} {rest : List (Nat × NodeId)}
    (goes : ∀ about type, m.Arrives (.type side about type) s .done (go side about type s)) :
    m.Arrives (.parts side about (part :: rest)) s (.parts side about rest)
      (m.readPart go side about part s) := by
  unfold readPart reached typeSize
  cases words : m.sizes with
  | error e =>
    refine .of_advance (fun waiting found => ?_) (arrives_throw e)
    simp only [advance, enterParts, words]
  | ok sizes =>
    have down (waiting : List Frame) (found : List Constraint) :
        m.Goes ⟨.parts side about (part :: rest), waiting, s, found⟩
          ⟨.size sizes.pointer part.2, .sizing side about part rest :: waiting, s, found⟩ :=
      goes_of_advance (by simp only [advance, enterParts, words])
    have measured (waiting : List Frame) (found : List Constraint) :=
      (down waiting found).trans (goes_size unnested m.types.keys part.2
        (fun _ listed outside => absurd listed outside) _ _)
    simp only [TypeTable.sizeOf]
    cases size : m.types.sizeWithin sizes.pointer m.types.keys part.2 with
    | error e =>
      simp only [size] at measured
      exact fun waiting found => ⟨found, (measured waiting found).trans ⟨1, rfl⟩⟩
    | ok n =>
      simp only [size] at measured
      exact .call (fun waiting found => (measured waiting found).trans ⟨1, rfl⟩)
        (goes (side.reach about part.1 n) part.2) (fun _ _ _ => rfl) (fun _ _ _ _ => rfl)

private theorem arrives_parts (isolated : ∀ side about id, Reader.Isolated (go side about id))
    (parts : List (Nat × NodeId))
    (goes : ∀ t, t.following = s.following → ∀ about type,
      m.Arrives (.type side about type) t .done (go side about type t)) :
    m.Arrives (.parts side about parts) s .done
      (Reader.collect (m.readPart go side about) parts s) := by
  induction parts generalizing s with
  | nil => exact .of_advance (fun _ _ => rfl) arrives_return
  | cons part rest ih =>
    refine (arrives_part unnested (goes s rfl)).append fun found t read => ?_
    have kept : t.following = s.following :=
      (isolated_readPart m isolated side about part).following_eq read
    exact ih fun u same => goes u (same.trans kept)

private theorem arrives_pointee (isolated : ∀ side about id, Reader.Isolated (go side about id))
    {pointer target : NodeId}
    (goes : ∀ t, t.following = s.following → ∀ about type,
      m.Arrives (.type side about type) t .done (go side about type t)) :
    m.Arrives (.pointee side about pointer target) s .done
      (m.readPointee go side about pointer target s) := by
  unfold readPointee
  cases present : m.types.get? target with
  | none =>
    refine .of_advance (fun waiting found => ?_) (arrives_throw _)
    simp only [advance, enterPointee, present]
  | some node =>
    have hollow (empty : node.parts target = []) :
        m.Arrives (.pointee side about pointer target) s .done
          (Reader.readSealed side about pointer s) := by
      intro waiting found
      exact goes_of_advance (by simp only [advance, enterPointee, present, empty]; rfl)
    have solid (full : node.parts target ≠ []) :
        m.Arrives (.pointee side about pointer target) s .done
          (Reader.collect (m.readPart go side about) (node.parts target) s) := by
      refine .of_advance (fun waiting found => ?_) (arrives_parts unnested isolated _ goes)
      simp only [advance, enterPointee, present]
    have single (whole : node.parts target = [(0, target)]) :
        m.Arrives (.pointee side about pointer target) s .done
          (m.readPart go side about (0, target) s) := by
      have only := solid (by simp [whole])
      rwa [whole, Reader.collect_singleton] at only
    cases node with
    | void | function => exact hollow rfl
    | struct size fields =>
      cases fields with
      | nil => exact hollow rfl
      | cons field rest => exact solid (List.cons_ne_nil field rest)
    | bool | char | int | float | unknown | pointer | array => exact single rfl

/-- A pointer that is being followed is not followed again, and no longer followed when the call that
follows it is left. -/
theorem arrives_pointer (isolated : ∀ side about id, Reader.Isolated (go side about id))
    {id target : NodeId} (present : m.types.get? id = some (.pointer (some target)))
    (goes : id ∉ s.following → ∀ t, t.following = id :: s.following → ∀ about type,
      m.Arrives (.type side about type) t .done (go side about type t)) :
    m.Arrives (.type side about id) s .done
      (Reader.whileFollowing id (m.readPointee go side about id target) s) := by
  by_cases inside : id ∈ s.following
  · rw [Reader.whileFollowing, if_pos inside]
    refine .of_advance (fun waiting found => ?_) arrives_return
    simp only [advance, enterType, present, if_pos inside]
  · let inner : Reading := { s with following := id :: s.following }
    have enter (waiting : List Frame) (found : List Constraint) :
        m.Goes ⟨.type side about id, waiting, s, found⟩
          ⟨.pointee side about id target, .following id :: waiting, inner, found⟩ := by
      apply goes_of_advance
      simp only [advance, enterType, present, if_neg inside, inner]
    rw [Reader.whileFollowing_of_notMem inside]
    exact .call_change enter (arrives_pointee unnested isolated (goes inside)) (fun _ _ _ => rfl)
      (fun _ _ _ _ => rfl)

private theorem arrives_type (isolated : ∀ side about id, Reader.Isolated (go side about id))
    {id : NodeId}
    (goes : ∀ target, m.types.get? id = some (.pointer (some target)) → id ∉ s.following →
      ∀ t, t.following = id :: s.following → ∀ about type,
        m.Arrives (.type side about type) t .done (go side about type t)) :
    m.Arrives (.type side about id) s .done (m.readType go side about id s) := by
  unfold readType
  cases present : m.types.get? id with
  | none =>
    refine .of_advance (fun waiting found => ?_) (arrives_throw _)
    simp only [advance, enterType, present]
  | some node =>
    have fails (e : Error) (step : ∀ c, m.enterType c side about id = { c with turn := .failed e }) :
        m.Arrives (.type side about id) s .done ((throw e : Reader (List Constraint)) s) :=
      .of_advance (fun _ _ => step _) (arrives_throw e)
    have passes (step : ∀ c, m.enterType c side about id = { c with turn := .done }) :
        m.Arrives (.type side about id) s .done ((pure [] : Reader (List Constraint)) s) :=
      .of_advance (fun _ _ => step _) arrives_return
    have scalar (step : ∀ c, m.enterType c side about id =
          match node.atom? with
          | some atom => c.find (side.order about ⟨atom, []⟩)
          | none => { c with turn := .done }) :
        m.Arrives (.type side about id) s .done ((match node.atom? with
          | some atom => return [side.order about ⟨atom, []⟩]
          | none => return [] : Reader (List Constraint)) s) := by
      cases named : node.atom? with
      | none => exact passes fun c => by rw [step, named]
      | some atom =>
        intro waiting found
        apply goes_of_advance
        simp only [advance, step, named]
        rfl
    cases node with
    | array | struct | function => exact fails _ fun c => by simp only [enterType, present]
    | unknown => exact passes fun c => by simp only [enterType, present]
    | pointer pointee =>
      cases pointee with
      | none =>
        intro waiting found
        apply goes_of_advance
        simp only [advance, enterType, present]
        rfl
      | some target => exact arrives_pointer unnested isolated present (goes target present)
    | void | bool | char | int | float => exact scalar fun c => by simp only [enterType, present]

/-- The depth to which pointers are followed is not used up, as there are no more pointers to follow. -/
theorem arrives_readTo (side : Side) (depth : Nat) (about : TypeVar) (id : NodeId)
    (distinct : s.following.Nodup) (listed : s.following ⊆ m.types.pointers)
    (enough : m.types.pointers.length ≤ depth + s.following.length) :
    m.Arrives (.type side about id) s .done (m.readTo depth side about id s) := by
  induction depth generalizing s about id with
  | zero =>
    refine arrives_type unnested (fun _ _ _ => Reader.isolated_pure []) fun target present apart => ?_
    -- All pointers are being followed, so this one is among them.
    have held : id :: s.following ⊆ m.types.pointers :=
      List.cons_subset.mpr ⟨TypeTable.mem_pointers present, listed⟩
    have bound := ((List.nodup_cons.mpr ⟨apart, distinct⟩).subperm held).length_le
    rw [List.length_cons] at bound
    omega
  | succ depth ih =>
    refine arrives_type unnested (isolated_readTo m depth) ?_
    intro target present apart t kept about type
    refine ih about type ?_ ?_ ?_
    · exact kept ▸ List.nodup_cons.mpr ⟨apart, distinct⟩
    · exact kept ▸ List.cons_subset.mpr ⟨TypeTable.mem_pointers present, listed⟩
    · rw [kept, List.length_cons]
      omega

private theorem arrives_readTo_of_idle (side : Side) {depth : Nat} (about : TypeVar) (id : NodeId)
    (idle : s.following = []) (enough : m.types.pointers.length ≤ depth) :
    m.Arrives (.type side about id) s .done (m.readTo depth side about id s) :=
  arrives_readTo unnested side depth about id (idle ▸ List.nodup_nil) (by simp [idle]) (by simpa [idle])

theorem readTo_eq_readWhole (side : Side) {depth : Nat} (about : TypeVar) (id : NodeId)
    (idle : s.following = []) (enough : m.types.pointers.length ≤ depth) :
    m.readTo depth side about id s = m.readWhole side about id s :=
  (arrives_readTo_of_idle unnested side about id idle enough).unique
    (arrives_readTo_of_idle unnested side about id idle (TypeTable.length_pointers_le m.types))

private theorem arrives_slots (name : String) (slots : List (Side × Label × Option NodeId))
    (idle : s.following = []) :
    m.Arrives (.slots name slots) s .done
      (Reader.collect (fun slot => m.readSlot name slot.1 slot.2) slots s) := by
  induction slots generalizing s with
  | nil => exact .of_advance (fun _ _ => rfl) arrives_return
  | cons slot rest ih =>
    obtain ⟨side, label, type⟩ := slot
    have one : m.Arrives (.slots name ((side, label, type) :: rest)) s (.slots name rest)
        (m.readSlot name side (label, type) s) := by
      cases type with
      | none => exact .of_advance (fun _ _ => rfl) arrives_return
      | some id =>
        have read := arrives_readTo_of_idle unnested side ⟨name, [label]⟩ id idle
          (TypeTable.length_pointers_le m.types)
        exact .call (fun _ _ => ⟨1, rfl⟩) read (fun _ _ _ => rfl) (fun _ _ _ _ => rfl)
    refine one.append fun found t read => ih ?_
    exact ((isolated_readSlot m name side (label, type)).following_eq read).trans idle

omit unnested in
private theorem readPrototype_eq_collect (name : String) (ret : Option NodeId)
    (params : List (Option NodeId)) : m.readPrototype name ret params = (do
      let found ← Reader.collect (fun slot => m.readSlot name slot.1 slot.2)
        (prototypeSlots ret params)
      return OrdSet.ofList found) := by
  simp only [readPrototype, prototypeSlots, Reader.collect_append, Reader.collect_map,
    Reader.collect_singleton, bind_assoc, pure_bind]

private theorem goes_prototype {function type : NodeId} {f : Routine} {ret : Option NodeId}
    {params : List (Option NodeId)} (recorded : m.prototypes.get? function = some type)
    (known : m.function? function = some f)
    (present : m.types.get? type = some (.function ret params)) (idle : s.following = []) :
    ∃ c, m.Goes (.start function s) c ∧ c.Ends (m.readFunction function s) := by
  let name := m.functionName f
  have enter : m.Goes (.start function s)
      ⟨.slots name (prototypeSlots ret params), [.prototype name], s, []⟩ := by
    apply goes_of_advance
    simp only [advance, start, enterFunction, recorded, known, present, name]
  have read := arrives_slots unnested name (prototypeSlots ret params) idle
  rw [readFunction_eq_readPrototype m recorded known present, readPrototype_eq_collect]
  simp only [bind, EStateM.bind]
  cases collected : Reader.collect (fun slot => m.readSlot name slot.1 slot.2)
      (prototypeSlots ret params) s with
  | ok found t =>
    rw [collected] at read
    have goes := enter.trans (read [.prototype name] [])
    exact ⟨_, goes.trans ⟨1, rfl⟩, .ok⟩
  | error e t =>
    rw [collected] at read
    obtain ⟨kept, goes⟩ := read [.prototype name] []
    exact ⟨_, (enter.trans goes).trans ⟨1, rfl⟩, .error⟩

theorem goes_function (function : NodeId) (idle : s.following = []) :
    ∃ c, m.Goes (.start function s) c ∧ c.Ends (m.readFunction function s) := by
  have passes {notice : Notice}
      (here : m.enterFunction (.start function s) function = (Descent.start function s).pass notice) :
      ∃ c, m.Goes (.start function s) c ∧
        c.Ends ((do Reader.note notice; return none : Reader (Option (String × ConstraintSet))) s) :=
    ⟨_, goes_of_advance here, .ok⟩
  cases recorded : m.prototypes.get? function with
  | none =>
    refine ⟨⟨.finished (.ok none), [], s, []⟩, goes_of_advance ?_, ?_⟩
    · simp only [advance, start, enterFunction, recorded]
    · simp only [readFunction, recorded]
      exact .ok
  | some type =>
    cases known : m.function? function with
    | none =>
      simp only [readFunction, recorded, known]
      exact passes (by simp only [enterFunction, recorded, known])
    | some f =>
      cases present : m.types.get? type with
      | none =>
        simp only [readFunction, recorded, known, present]
        exact passes (by simp only [enterFunction, recorded, known, present])
      | some node =>
        cases node with
        | function ret params => exact goes_prototype unnested recorded known present idle
        | _ =>
          simp only [readFunction, recorded, known, present]
          exact passes (by simp only [enterFunction, recorded, known, present])

end

end CodeModule
end TypeRecovery
