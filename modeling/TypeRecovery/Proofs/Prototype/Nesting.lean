import TypeRecovery.Proofs.Prototype.Descent

/-! Calls within calls. In the course of a descent each open call that follows a pointer holds it, and is
itself inside of a call that reads one part of what the pointer before leads to. So no more pointers are
followed within each other than there are, and reading ends on every graph of types. -/
namespace TypeRecovery
open Relation

inductive Awaited where
  | prototype
  | type
  | pointee
  | size

/-- Open calls, by the kind of call that the innermost one waits for. -/
inductive Stacked : Awaited → List Frame → Prop where
  | prototype {name : String} : Stacked .prototype [.prototype name]
  | slot {waiting : List Frame} {name : String} {rest : List (Side × Label × Option NodeId)}
    (below : Stacked .prototype waiting) : Stacked .type (.slot name rest :: waiting)
  | part {waiting : List Frame} {side : Side} {about : TypeVar} {rest : List (Nat × NodeId)}
    (below : Stacked .pointee waiting) : Stacked .type (.part side about rest :: waiting)
  | following {waiting : List Frame} {pointer : NodeId} (below : Stacked .type waiting) :
    Stacked .pointee (.following pointer :: waiting)
  | sizing {waiting : List Frame} {side : Side} {about : TypeVar} {part : Nat × NodeId}
    {rest : List (Nat × NodeId)} (below : Stacked .pointee waiting) :
    Stacked .size (.sizing side about part rest :: waiting)
  | counting {waiting : List Frame} {count : Nat} (below : Stacked .size waiting) :
    Stacked .size (.counting count :: waiting)

/-- The open calls wait for what the turn is about. -/
def Descent.Fits (c : Descent) : Prop :=
  match c.turn with
  | .function _ | .finished _ => c.waiting = []
  | .slots _ _ => Stacked .prototype c.waiting
  | .type _ _ _ => Stacked .type c.waiting
  | .pointee _ _ _ _ | .parts _ _ _ => Stacked .pointee c.waiting
  | .size _ _ | .sized _ => Stacked .size c.waiting
  | .done => Stacked .prototype c.waiting ∨ Stacked .type c.waiting ∨ Stacked .pointee c.waiting
  | .failed _ => ∃ awaited, Stacked awaited c.waiting

theorem Descent.Fits.stacked {c : Descent} (fits : c.Fits) :
    c.waiting = [] ∨ ∃ awaited, Stacked awaited c.waiting := by
  obtain ⟨turn, waiting, s, found⟩ := c
  cases turn with
  | function | finished => exact .inl fits
  | slots | type | pointee | parts | size | sized => exact .inr ⟨_, fits⟩
  | failed => exact .inr fits
  | done =>
    rcases fits with below | below | below
    · exact .inr ⟨_, below⟩
    · exact .inr ⟨_, below⟩
    · exact .inr ⟨_, below⟩

namespace CodeModule
variable {m : CodeModule} {c : Descent}

private theorem fits_enterFunction {function : NodeId} (idle : c.waiting = []) :
    (m.enterFunction c function).Fits := by
  unfold enterFunction
  split
  · exact idle
  · split
    · exact idle
    · dsimp only
      split
      · rw [idle]
        exact .prototype
      · exact idle

private theorem fits_enterSlots {name : String} {slots : List (Side × Label × Option NodeId)}
    (below : Stacked .prototype c.waiting) : (enterSlots c name slots).Fits := by
  unfold enterSlots
  split
  · exact .inl below
  · exact below
  · exact .slot below

private theorem fits_enterType {side : Side} {about : TypeVar} {id : NodeId}
    (below : Stacked .type c.waiting) : (m.enterType c side about id).Fits := by
  have failed (e : Error) : { c with turn := .failed e }.Fits := ⟨_, below⟩
  have done : { c with turn := .done }.Fits := .inr (.inl below)
  unfold enterType
  split
  · exact failed _
  · exact done
  · exact failed _
  · exact failed _
  · exact failed _
  · exact done
  · split
    · exact done
    · exact .following below
  · split
    · exact done
    · exact done

private theorem fits_enterPointee {side : Side} {about : TypeVar} {pointer target : NodeId}
    (below : Stacked .pointee c.waiting) : (m.enterPointee c side about pointer target).Fits := by
  unfold enterPointee
  split
  · exact ⟨_, below⟩
  · split
    · exact .inr (.inr below)
    · exact below

private theorem fits_enterParts {side : Side} {about : TypeVar} {parts : List (Nat × NodeId)}
    (below : Stacked .pointee c.waiting) : (m.enterParts c side about parts).Fits := by
  unfold enterParts
  split
  · exact .inr (.inr below)
  · split
    · exact ⟨_, below⟩
    · exact .sizing below

private theorem fits_enterSize {pointerSize : Nat} {id : NodeId} (below : Stacked .size c.waiting) :
    (m.enterSize c pointerSize id).Fits := by
  have failed (e : Error) : { c with turn := .failed e }.Fits := ⟨_, below⟩
  have sized (size : Nat) : { c with turn := .sized size }.Fits := below
  unfold enterSize
  split
  · exact failed _
  · exact failed _
  · exact failed _
  case h_11 => exact .counting below
  all_goals exact sized _

theorem fits_advance (fits : c.Fits) : (m.advance c).Fits := by
  obtain ⟨turn, waiting, s, found⟩ := c
  cases turn with
  | function => exact fits_enterFunction fits
  | slots => exact fits_enterSlots fits
  | type => exact fits_enterType fits
  | pointee => exact fits_enterPointee fits
  | parts => exact fits_enterParts fits
  | size => exact fits_enterSize fits
  | done =>
    have below : Stacked .prototype waiting ∨ Stacked .type waiting ∨ Stacked .pointee waiting := fits
    rcases below with below | below | below
    · cases below with
      | prototype => rfl
    · cases below with
      | slot below | part below => exact below
    · cases below with
      | following below => exact .inr (.inl below)
  | sized =>
    have below : Stacked .size waiting := fits
    cases below with
    | sizing below => exact .part below
    | counting below => exact below
  | failed =>
    obtain ⟨_, below⟩ : ∃ awaited, Stacked awaited waiting := fits
    cases below with
    | prototype => rfl
    | slot below | part below | following below | sizing below | counting below => exact ⟨_, below⟩
  | finished => exact fits

/-- What a step does to the pointers that are being followed. -/
inductive Moves (m : CodeModule) (c c' : Descent) : Prop where
  | stays (same : c'.reading.following = c.reading.following)
    (unmoved : Frame.followed c'.waiting = Frame.followed c.waiting)
  | follows {pointer target : NodeId} (present : m.types.get? pointer = some (.pointer (some target)))
    (apart : pointer ∉ c.reading.following)
    (same : c'.reading.following = pointer :: c.reading.following)
    (entered : c'.waiting = .following pointer :: c.waiting)
  | releases {pointer : NodeId} (same : c'.reading.following = c.reading.following.erase pointer)
    (left : c.waiting = .following pointer :: c'.waiting)

private theorem moves_enterType {side : Side} {about : TypeVar} {id : NodeId} :
    m.Moves c (m.enterType c side about id) := by
  unfold enterType
  split
  case h_7 present =>
    split
    case isTrue => exact .stays rfl rfl
    case isFalse apart => exact .follows present apart rfl rfl
  case h_8 => split <;> exact .stays rfl rfl
  all_goals exact .stays rfl rfl

theorem moves_advance : m.Moves c (m.advance c) := by
  obtain ⟨turn, waiting, s, found⟩ := c
  cases turn with
  | function =>
    simp only [advance, enterFunction]
    split
    · exact .stays rfl rfl
    · split
      · exact .stays rfl rfl
      · split <;> exact .stays rfl rfl
  | slots =>
    simp only [advance]
    unfold enterSlots
    split <;> exact .stays rfl rfl
  | type => exact moves_enterType
  | pointee =>
    simp only [advance, enterPointee]
    split
    · exact .stays rfl rfl
    · split <;> exact .stays rfl rfl
  | parts =>
    simp only [advance]
    unfold enterParts
    split
    · exact .stays rfl rfl
    · split <;> exact .stays rfl rfl
  | size =>
    simp only [advance, enterSize]
    split <;> exact .stays rfl rfl
  | done | failed =>
    cases waiting with
    | nil => exact .stays rfl rfl
    | cons frame rest =>
      cases frame with
      | following => exact .releases rfl rfl
      | part | sizing | counting | slot | prototype => exact .stays rfl rfl
  | sized =>
    simp only [advance, Descent.leaveSized]
    split <;> exact .stays rfl rfl
  | finished => exact .stays rfl rfl

/-- Just the pointers are held that open calls follow. They are pointers that lead somewhere, and no
two of them are the same. -/
structure Holds (m : CodeModule) (c : Descent) : Prop where
  held : c.reading.following = Frame.followed c.waiting
  distinct : c.reading.following.Nodup
  pointers : ∀ p ∈ c.reading.following, ∃ target, m.types.get? p = some (.pointer (some target))

theorem Holds.advance (holds : m.Holds c) : m.Holds (m.advance c) := by
  obtain ⟨held, distinct, pointers⟩ := holds
  rcases m.moves_advance (c := c) with ⟨same, unmoved⟩ | ⟨present, apart, same, entered⟩ | ⟨same, left⟩
  · exact ⟨by rw [same, unmoved, held], same ▸ distinct, same ▸ pointers⟩
  · refine ⟨?_, same ▸ List.nodup_cons.mpr ⟨apart, distinct⟩, ?_⟩
    · rw [same, entered, held]
      rfl
    · rw [same]
      exact List.forall_mem_cons.mpr ⟨⟨_, present⟩, pointers⟩
  · refine ⟨?_, same ▸ distinct.erase _, ?_⟩
    · rw [same, held, left]
      exact List.erase_cons_head _ _
    · intro p inside
      rw [same] at inside
      exact pointers p (List.mem_of_mem_erase inside)

end CodeModule

namespace Stacked
variable {awaited : Awaited} {waiting outer : List Frame} {p q : NodeId}

private theorem eq_prototype (stacked : Stacked .prototype waiting) :
    ∃ name, waiting = [.prototype name] := by
  cases stacked with
  | prototype => exact ⟨_, rfl⟩

private theorem of_following (stacked : Stacked awaited waiting) (inner : List Frame)
    (split : waiting = inner ++ .following p :: outer) : Stacked .type outer := by
  induction stacked generalizing inner with
  | prototype => cases inner <;> simp at split
  | following below ih =>
    cases inner with
    | nil => exact (List.cons.inj split).2 ▸ below
    | cons frame inner => exact ih inner (List.cons.inj split).2
  | slot below ih | part below ih | sizing below ih | counting below ih =>
    cases inner with
    | nil => simp at split
    | cons frame inner => exact ih inner (List.cons.inj split).2

/-- Between two pointers that are followed within each other, just one part of what the outer one
leads to is being read. -/
theorem between_eq_part {inner between : List Frame} (stacked : Stacked awaited waiting)
    (split : waiting = inner ++ .following p :: (between ++ .following q :: outer))
    (none : Frame.followed between = []) :
    ∃ side about rest, between = [.part side about rest] := by
  have below := stacked.of_following inner split
  cases between with
  | nil => nomatch below
  | cons frame rest =>
    cases below with
    | slot below =>
      -- Below an argument is the prototype alone, which has no room for the outer pointer.
      obtain ⟨name, alone⟩ := below.eq_prototype
      cases rest <;> simp at alone
    | part below =>
      cases rest with
      | nil => exact ⟨_, _, _, rfl⟩
      | cons frame rest =>
        cases below with
        | following => simp [Frame.followed, Frame.pointer?] at none

end Stacked

namespace CodeModule
variable {m : CodeModule} {c : Descent}

theorem Holds.length_le (holds : m.Holds c) :
    c.reading.following.length ≤ m.types.pointers.length := by
  have listed : c.reading.following ⊆ m.types.pointers := by
    intro p inside
    obtain ⟨target, present⟩ := holds.pointers p inside
    exact TypeTable.mem_pointers present
  exact (holds.distinct.subperm listed).length_le

/-- How calls are open within each other. -/
structure Nests (m : CodeModule) (c : Descent) : Prop extends m.Holds c where
  /-- A call that follows a pointer holds one pointer more than the calls it is inside of. -/
  adds : ∀ p, (m.advance c).waiting = .following p :: c.waiting →
    p ∉ c.reading.following ∧ (m.advance c).reading.following = p :: c.reading.following
  /-- From one pointer to the next within it, a single part is being read. -/
  steps : ∀ inner p between q outer,
    c.waiting = inner ++ .following p :: (between ++ .following q :: outer) →
    Frame.followed between = [] → ∃ side about rest, between = [.part side about rest]
  bounded : (Frame.followed c.waiting).length ≤ m.types.pointers.length

private theorem Holds.nests (holds : m.Holds c) (fits : c.Fits) : m.Nests c where
  toHolds := holds
  adds p entered := by
    have after := holds.advance
    have grown : (m.advance c).reading.following = p :: c.reading.following := by
      rw [after.held, entered, holds.held]
      rfl
    exact ⟨(List.nodup_cons.mp (grown ▸ after.distinct)).1, grown⟩
  steps inner p between q outer split none := by
    rcases fits.stacked with idle | ⟨awaited, stacked⟩
    · simp [idle] at split
    · exact stacked.between_eq_part split none
  bounded := holds.held ▸ holds.length_le

theorem nests_iterate (function : NodeId) {s : Reading} (idle : s.following = []) (steps : Nat) :
    m.Nests (m.advance^[steps] (.start function s)) := by
  suffices orderly : m.Holds (m.advance^[steps] (.start function s)) ∧
      (m.advance^[steps] (.start function s)).Fits from orderly.1.nests orderly.2
  induction steps with
  | zero => exact ⟨⟨idle, idle ▸ List.nodup_nil, by simp [Descent.start, idle]⟩, rfl⟩
  | succ steps ih =>
    rw [Function.iterate_succ_apply']
    exact ⟨ih.1.advance, fits_advance ih.2⟩

/-- Where no array contains itself, reading a function comes to an end, whatever was read before it, and
to what it is read as. In the course of it, the pointers that are held are distinct pointers of the table
that lead somewhere, one for each call that follows a pointer within another. So the number of pointers is
depth enough for every type. -/
theorem readFunction_ends (m : CodeModule) (unnested : ∀ id, ¬ TransGen m.types.ElementOf id id)
    (before : List NodeId) (function : NodeId) :
    let s := (m.readEach {} before).2
    (∃ steps, (m.advance^[steps] (.start function s)).Ends (m.readFunction function s)) ∧
    (∀ steps, m.Nests (m.advance^[steps] (.start function s))) ∧
    ∀ depth, m.types.pointers.length ≤ depth → ∀ side about id,
      m.readTo depth side about id s = m.readWhole side about id s := by
  intro s
  have idle : s.following = [] := (readEach_eq m before rfl).2
  obtain ⟨_, ⟨steps, rfl⟩, ends⟩ := goes_function unnested function idle
  refine ⟨⟨steps, ends⟩, nests_iterate function idle, fun depth enough side about id => ?_⟩
  exact readTo_eq_readWhole unnested side about id idle enough

/-- A function that takes an owner, which points to its pets and has an array of numbers. A pet points
to its owner. -/
def ownerReader : CodeModule where
  name := "owners"
  isa := .x64
  functions := [⟨⟨7⟩, ["adopt"], ∅, ∅⟩]
  types := OrdMap.ofList [(⟨1⟩, .int 4 true), (⟨2⟩, .pointer (some ⟨3⟩)),
    (⟨3⟩, .struct 24 [(0, ⟨5⟩), (8, ⟨4⟩)]), (⟨4⟩, .array ⟨1⟩ 4), (⟨5⟩, .pointer (some ⟨6⟩)),
    (⟨6⟩, .struct 16 [(0, ⟨2⟩), (8, ⟨1⟩)]), (⟨8⟩, .function none [some ⟨2⟩])]
  prototypes := OrdMap.ofList [(⟨7⟩, ⟨8⟩)]

/-- Owners and pets are followed within each other once, and reading ends at the array. -/
theorem readFunction_ends_owner : (∀ id, ¬ TransGen ownerReader.types.ElementOf id id) ∧
    (∃ steps, (ownerReader.advance^[steps] (.start ⟨7⟩ {})).turn =
      .finished (.error (.byValueAggregate "array" ⟨4⟩))) ∧
    ∀ steps, (Frame.followed (ownerReader.advance^[steps] (.start ⟨7⟩ {})).waiting).length ≤ 2 := by
  have only (id element : NodeId) (given : ownerReader.types.ElementOf id element) :
      id = ⟨4⟩ ∧ element = ⟨1⟩ := by
    obtain ⟨count, present⟩ := given
    have listed := (OrdMap.get?_eq_some_iff _ _ _).mp present
    have entries : ownerReader.types.entries = [(⟨1⟩, .int 4 true), (⟨2⟩, .pointer (some ⟨3⟩)),
      (⟨3⟩, .struct 24 [(0, ⟨5⟩), (8, ⟨4⟩)]), (⟨4⟩, .array ⟨1⟩ 4), (⟨5⟩, .pointer (some ⟨6⟩)),
      (⟨6⟩, .struct 16 [(0, ⟨2⟩), (8, ⟨1⟩)]), (⟨8⟩, .function none [some ⟨2⟩])] := rfl
    simp_all
  have unnested (id : NodeId) : ¬ TransGen ownerReader.types.ElementOf id id := by
    intro cycle
    obtain ⟨_, first, _⟩ := TransGen.head'_iff.mp cycle
    obtain ⟨_, _, last⟩ := TransGen.tail'_iff.mp cycle
    have same := (only _ _ first).1.symm.trans (only _ _ last).2
    contradiction
  obtain ⟨⟨steps, ends⟩, nests, _⟩ := readFunction_ends ownerReader unnested [] ⟨7⟩
  have read : outcome (ownerReader.readFunction ⟨7⟩ {}) =
      .error (.byValueAggregate "array" ⟨4⟩) := by decide +kernel
  refine ⟨unnested, ⟨steps, ?_⟩, fun steps => (nests steps).bounded⟩
  rw [← read]
  exact ends.turn_eq

end CodeModule
end TypeRecovery
