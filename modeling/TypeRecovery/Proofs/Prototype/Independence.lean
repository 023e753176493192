import TypeRecovery.Prototype.Reading
import TypeRecovery.Proofs.Ordered
import TypeRecovery.Proofs.Outcomes

/-! Prototypes are read apart from each other. Whatever reading work was done before, and however it
ended, no pointer is being followed afterwards, and the next function is read as if it were the
first. So the prototypes of a module come to what each of them comes to on its own, and one that is
passed over may as well not be there. -/
namespace TypeRecovery

/-- What work came to, apart from the state that it left. -/
def outcome {ε σ α : Type} : EStateM.Result ε σ α → Except ε α
  | .ok a _ => .ok a
  | .error e _ => .error e

namespace Reader
variable {α β : Type} {following : List NodeId}

/-- Two runs that came to the same, both with the given pointers being followed at the end. -/
inductive Agree (following : List NodeId) :
    EStateM.Result Error Reading α → EStateM.Result Error Reading α → Prop where
  | ok (a : α) {s t : Reading} (left : s.following = following) (right : t.following = following) :
    Agree following (.ok a s) (.ok a t)
  | error (e : Error) {s t : Reading} (left : s.following = following)
    (right : t.following = following) : Agree following (.error e s) (.error e t)

/-- What the work comes to depends on the pointers being followed only. They are the same after it
as before, also if it fails. -/
def Isolated (work : Reader α) : Prop :=
  ∀ s t : Reading, s.following = t.following → Agree s.following (work s) (work t)

theorem Isolated.following_eq {work : Reader α} (isolated : Isolated work) {s t : Reading} {a : α}
    (done : work s = .ok a t) : t.following = s.following := by
  have same := isolated s s rfl
  rw [done] at same
  cases same with
  | ok a left right => exact left

theorem isolated_pure (a : α) : Isolated (pure a : Reader α) :=
  fun _ _ same => .ok a rfl same.symm

private theorem isolated_throw (e : Error) : Isolated (throw e : Reader α) :=
  fun _ _ same => .error e rfl same.symm

private theorem isolated_modify {f : Reading → Reading}
    (keeps : ∀ s, (f s).following = s.following) :
    Isolated (modify f : Reader Unit) :=
  fun s t same => .ok () (keeps s) ((keeps t).trans same.symm)

theorem Isolated.bind {work : Reader α} {next : α → Reader β} (first : Isolated work)
    (later : ∀ a, Isolated (next a)) : Isolated (work >>= next) := by
  intro s t same
  have begun := first s t same
  simp only [Bind.bind, EStateM.bind]
  generalize work s = ending, work t = other at begun ⊢
  cases begun with
  | ok a left right => exact left ▸ later a _ _ (left.trans right.symm)
  | error e left right => exact .error e left right

private theorem isolated_note (notice : Notice) : Isolated (note notice) :=
  isolated_modify fun _ => rfl

private theorem isolated_readSealed (side : Side) (about : TypeVar) (pointer : NodeId) :
    Isolated (readSealed side about pointer) := by
  refine Isolated.bind ?_ fun _ => isolated_pure _
  exact isolated_modify fun _ => rfl

theorem Isolated.whileFollowing {work : Reader (List Constraint)} (isolated : Isolated work)
    (pointer : NodeId) : Isolated (whileFollowing pointer work) := by
  intro s t same
  unfold Reader.whileFollowing
  rw [← same]
  split
  next => exact .ok [] rfl same.symm
  next =>
    have inner := isolated { s with following := pointer :: s.following }
      { t with following := pointer :: s.following } rfl
    generalize work { s with following := pointer :: s.following } = ending,
      work { t with following := pointer :: s.following } = other at inner ⊢
    cases inner with
    | ok found left right => exact .ok found (by simp [left]) (by simp [right])
    | error e left right => exact .error e (by simp [left]) (by simp [right])

private theorem isolated_collect {part : α → Reader (List Constraint)}
    (each : ∀ a, Isolated (part a))
    (parts : List α) : Isolated (collect part parts) := by
  induction parts with
  | nil => exact isolated_pure []
  | cons a rest ih =>
    refine (each a).bind fun found => ih.bind fun more => ?_
    exact isolated_pure (found ++ more)

end Reader

namespace CodeModule
open Reader
variable (m : CodeModule)

section
variable {go : Side → TypeVar → NodeId → Reader (List Constraint)}
  (goes : ∀ side about id, Isolated (go side about id))
include goes

theorem isolated_readPart (side : Side) (about : TypeVar) (part : Nat × NodeId) :
    Isolated (m.readPart go side about part) := by
  unfold readPart
  split
  next e _ => exact isolated_throw e
  next v _ => exact goes side v part.2

private theorem isolated_readPointee (side : Side) (about : TypeVar) (pointer pointee : NodeId) :
    Isolated (m.readPointee go side about pointer pointee) := by
  unfold readPointee
  split
  · exact isolated_throw _
  · exact isolated_readSealed side about pointer
  · exact isolated_readSealed side about pointer
  · exact isolated_readSealed side about pointer
  · exact isolated_collect (isolated_readPart m goes side about) _
  · exact isolated_readPart m goes side about _

private theorem isolated_readType (side : Side) (about : TypeVar) (id : NodeId) :
    Isolated (m.readType go side about id) := by
  unfold readType
  split
  · exact isolated_throw _
  · exact isolated_pure []
  · exact isolated_throw _
  · exact isolated_throw _
  · exact isolated_throw _
  · exact isolated_readSealed side about id
  · exact (isolated_readPointee m goes side about id _).whileFollowing id
  · split <;> exact isolated_pure _

end

theorem isolated_readTo (depth : Nat) (side : Side) (about : TypeVar) (id : NodeId) :
    Isolated (m.readTo depth side about id) := by
  induction depth generalizing side about id with
  | zero => exact isolated_readType m (fun _ _ _ => isolated_pure []) side about id
  | succ depth ih => exact isolated_readType m ih side about id

theorem isolated_readSlot (name : String) (side : Side) (slot : Label × Option NodeId) :
    Isolated (m.readSlot name side slot) := by
  unfold readSlot
  split
  · exact isolated_readTo m _ side _ _
  · exact isolated_pure []

theorem isolated_readFunction (function : NodeId) : Isolated (m.readFunction function) := by
  unfold readFunction
  split
  next => exact isolated_pure none
  next type _ =>
    split
    next => exact (isolated_note _).bind fun _ => isolated_pure none
    next f _ =>
      dsimp only
      split
      next ret params _ =>
        refine Isolated.bind ?_ fun constraints => isolated_pure _
        refine (isolated_collect (isolated_readSlot m _ .left) _).bind fun inputs => ?_
        exact (isolated_readSlot m _ .right _).bind fun output => isolated_pure _
      next => exact (isolated_note _).bind fun _ => isolated_pure none

def alone (function : NodeId) : Except Error (Option (String × ConstraintSet)) :=
  outcome (m.readFunction function {})

private theorem readFunction_agrees (function : NodeId) {s : Reading} (idle : s.following = []) :
    Agree [] (m.readFunction function s) (m.readFunction function {}) :=
  idle ▸ isolated_readFunction m function s {} idle

theorem readEach_eq (functions : List NodeId) {s : Reading} (idle : s.following = []) :
    (m.readEach s functions).1 = functions.map m.alone ∧
      (m.readEach s functions).2.following = [] := by
  induction functions generalizing s with
  | nil => exact ⟨rfl, idle⟩
  | cons function rest ih =>
    have first := readFunction_agrees m function idle
    rw [List.map_cons, alone, readEach]
    generalize m.readFunction function s = result, m.readFunction function {} = own at first ⊢
    cases first with
    | ok found left right => exact ⟨congrArg (Except.ok found :: ·) (ih left).1, (ih left).2⟩
    | error e left right => exact ⟨congrArg (Except.error e :: ·) (ih left).1, (ih left).2⟩

/-- An outcome that the prototypes of a module as a whole depend on. -/
def counts : Except Error (Option (String × ConstraintSet)) → Bool
  | .ok _ => true
  | .error e => !isPassedOver e

/-- Reading functions into a map comes to what they come to on their own. The first failure that is
not passed over is that of the whole. -/
theorem outcome_readInto (all : OrdMap String ConstraintSet) (functions : List NodeId) {s : Reading}
    (idle : s.following = []) : outcome (m.readInto all functions s) =
      (allOk ((functions.map m.alone).filter counts)).map fun found =>
        all.insertAll found.reduceOption := by
  induction functions generalizing all s with
  | nil => rfl
  | cons function rest ih =>
    have first := readFunction_agrees m function idle
    simp only [readInto, List.map_cons, alone]
    generalize m.readFunction function s = result, m.readFunction function {} = own at first ⊢
    cases first with
    | ok found left right =>
      cases found with
      | none =>
        rw [outcome, List.filter_cons_of_pos rfl, allOk_ok, ih all left]
        cases allOk ((rest.map m.alone).filter counts) <;> rfl
      | some entry =>
        rw [outcome, List.filter_cons_of_pos rfl, allOk_ok]
        refine (ih (all.insert entry.1 entry.2) left).trans ?_
        cases allOk ((rest.map m.alone).filter counts) <;> rfl
    | error e left right =>
      by_cases passed : isPassedOver e
      · rw [outcome, List.filter_cons_of_neg (by simp [counts, passed])]
        simp only [passed, if_true]
        exact ih all left
      · rw [outcome, List.filter_cons_of_pos (by simpa [counts] using passed), allOk_error]
        simp only [passed]
        rfl

theorem outcome_readPrototypes : outcome (m.readPrototypes {}) =
    (allOk ((m.prototypes.keys.map m.alone).filter counts)).map fun found =>
      OrdMap.ofList found.reduceOption :=
  outcome_readInto m ∅ m.prototypes.keys rfl

section
variable {m} {prototypes : OrdMap NodeId NodeId}

/-- The prototypes of other functions are of no concern to a type. -/
theorem readTo_prototypes (depth : Nat) :
    ({ m with prototypes := prototypes } : CodeModule).readTo depth = m.readTo depth := by
  induction depth with
  | zero => rfl
  | succ depth ih => exact congrArg m.readType ih

private theorem readPrototype_prototypes :
    ({ m with prototypes := prototypes } : CodeModule).readPrototype = m.readPrototype := by
  have slots : ({ m with prototypes := prototypes } : CodeModule).readSlot = m.readSlot := by
    funext name side slot
    simp only [readSlot, readWhole, readTo_prototypes]
  funext name ret params
  simp only [readPrototype, slots]

private theorem alone_prototypes {function : NodeId}
    (same : prototypes.get? function = m.prototypes.get? function) :
    ({ m with prototypes := prototypes } : CodeModule).alone function = m.alone function := by
  simp only [alone, readFunction, readPrototype_prototypes, same]
  rfl

private theorem counted_prototypes {function : NodeId} {e : Error}
    (absent : m.prototypes.get? function = none)
    (same : ∀ other, other ≠ function → prototypes.get? other = m.prototypes.get? other)
    (failed : ({ m with prototypes := prototypes } : CodeModule).alone function = .error e)
    (passed : isPassedOver e) :
    (prototypes.keys.map ({ m with prototypes := prototypes } : CodeModule).alone).filter counts =
      (m.prototypes.keys.map m.alone).filter counts := by
  have agree (other : NodeId) (apart : other ≠ function) :
      ({ m with prototypes := prototypes } : CodeModule).alone other = m.alone other :=
    alone_prototypes (same other apart)
  have unlisted : function ∉ m.prototypes.keys := by
    rw [OrdMap.mem_keys, absent]
    simp
  have members (other : NodeId) : other ∈ prototypes.keys ∧
        counts (({ m with prototypes := prototypes } : CodeModule).alone other) ↔
      other ∈ m.prototypes.keys ∧ counts (m.alone other) := by
    by_cases here : other = function
    · subst here
      simp [failed, counts, passed, unlisted]
    · rw [agree other here, OrdMap.mem_keys, OrdMap.mem_keys, same other here]
  -- Keys are in increasing order, so it is enough that the same ones count.
  have keys : prototypes.keys.filter
        (counts ∘ ({ m with prototypes := prototypes } : CodeModule).alone) =
      m.prototypes.keys.filter (counts ∘ m.alone) := by
    have ordered (p : OrdMap NodeId NodeId) : p.keys.Pairwise fun a b => compare a b = .lt :=
      List.pairwise_map.mpr p.increasing
    apply OrdMap.eq_of_increasing _ ((ordered _).filter _) ((ordered _).filter _)
    · simpa using members
    · intro a b up down
      rw [Std.OrientedCmp.gt_of_lt up] at down
      contradiction
  rw [List.filter_map, List.filter_map, keys]
  apply List.map_congr_left
  intro other listed
  apply agree
  rintro rfl
  exact unlisted (List.mem_of_mem_filter listed)

end

/-- Functions are read apart from each other, and prototypes that are passed over change nothing for
the others. -/
structure ReadsApart : Prop where
  /-- However the functions before it were read, a function comes to what it comes to alone. -/
  outcomes : ∀ functions, (m.readEach {} functions).1 = functions.map m.alone
  idle : ∀ functions, (m.readEach {} functions).2.following = []
  /-- A failure as a whole is that of some prototype of its own. -/
  failure : ∀ e s, m.readPrototypes {} = .error e s →
    ∃ function ∈ m.prototypes.keys, m.alone function = .error e ∧ ¬ isPassedOver e
  /-- It makes no difference whether a prototype that is passed over is there. -/
  skipping : ∀ prototypes function, m.prototypes.get? function = none →
    (∀ other, other ≠ function → prototypes.get? other = m.prototypes.get? other) →
    ∀ e, ({ m with prototypes := prototypes } : CodeModule).alone function = .error e →
      isPassedOver e →
      outcome (({ m with prototypes := prototypes } : CodeModule).readPrototypes {}) =
        outcome (m.readPrototypes {})

theorem readsApart : m.ReadsApart where
  outcomes functions := (readEach_eq m functions rfl).1
  idle functions := (readEach_eq m functions rfl).2
  failure e s failed := by
    have whole := outcome_readPrototypes m
    rw [failed, outcome] at whole
    cases counted : allOk ((m.prototypes.keys.map m.alone).filter counts) with
    | ok found =>
      rw [counted] at whole
      contradiction
    | error e' =>
      rw [counted] at whole
      obtain rfl := Except.error.inj whole
      obtain ⟨listed, serious⟩ := List.mem_filter.mp (mem_of_allOk_error counted)
      obtain ⟨function, inside, own⟩ := List.mem_map.mp listed
      exact ⟨function, inside, own, by simpa [counts] using serious⟩
  skipping prototypes function absent same e failed passed := by
    rw [outcome_readPrototypes, outcome_readPrototypes, counted_prototypes absent same failed passed]

def countingModule : CodeModule where
  name := "count"
  isa := .x64
  functions := [⟨⟨1⟩, ["walk"], ∅, ∅⟩, ⟨⟨2⟩, ["count"], ∅, ∅⟩]
  types := OrdMap.ofList [(⟨3⟩, .int 4 true), (⟨4⟩, .pointer (some ⟨5⟩)),
    (⟨5⟩, .struct 16 [(0, ⟨3⟩), (8, ⟨6⟩)]), (⟨6⟩, .pointer (some ⟨9⟩)),
    (⟨7⟩, .function none [some ⟨4⟩]), (⟨8⟩, .function none [some ⟨3⟩])]
  prototypes := OrdMap.ofList [(⟨2⟩, ⟨8⟩)]

/-- Reading the prototype of another function fails inside of two pointers, and leaves no trace. -/
theorem readsApart_counting :
    let extended : CodeModule :=
      { countingModule with prototypes := countingModule.prototypes.insert ⟨1⟩ ⟨7⟩ }
    extended.alone ⟨1⟩ = .error (.danglingType ⟨9⟩) ∧
    (extended.readEach {} [⟨1⟩, ⟨2⟩]).1 = [.error (.danglingType ⟨9⟩), extended.alone ⟨2⟩] ∧
    (extended.readEach {} [⟨1⟩]).2.following = [] ∧
    outcome (extended.readPrototypes {}) = outcome (countingModule.readPrototypes {}) := by
  intro extended
  have failed : extended.alone ⟨1⟩ = .error (.danglingType ⟨9⟩) := by decide +kernel
  refine ⟨failed, ?_, (readsApart extended).idle _, ?_⟩
  · rw [(readsApart extended).outcomes, List.map_cons, List.map_singleton, failed]
  · refine (readsApart countingModule).skipping _ ⟨1⟩ rfl (fun other apart => ?_) _ failed rfl
    exact OrdMap.get?_insert_of_ne _ _ apart

end CodeModule
end TypeRecovery
