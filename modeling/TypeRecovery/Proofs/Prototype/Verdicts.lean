import Mathlib.Data.List.Forall2
import TypeRecovery.Proofs.Prototype.Functions

/-! What reading makes of a prototype. Types are judged one after another in the order in which they
are read, and the first one that is not accepted decides: either the prototype alone is passed over,
or nothing more is read at all. -/
namespace TypeRecovery

inductive Verdict where
  | accepted
  /-- Something in the prototype is missing or has no size. -/
  | skipped
  | refused
deriving DecidableEq

namespace Verdict

/-- The first verdict, unless it leaves the decision to the second one. -/
def andThen : Verdict → Verdict → Verdict
  | accepted, later => later
  | decided, _ => decided

def first (verdicts : List Verdict) : Verdict := verdicts.foldr andThen accepted

@[simp] theorem andThen_accepted (v : Verdict) : v.andThen accepted = v := by
  cases v <;> rfl

private theorem first_append (verdicts : List Verdict) (last : Verdict) :
    first (verdicts ++ [last]) = (first verdicts).andThen last := by
  induction verdicts with
  | nil => exact andThen_accepted last
  | cons v rest ih =>
    have step (l : List Verdict) : first (v :: l) = v.andThen (first l) := rfl
    rw [List.cons_append, step, step, ih]
    cases v <;> rfl

end Verdict

/-- Types that no constraint describes, and instruction sets without known sizes. -/
inductive Error.IsRefusal : Error → Prop where
  | aggregate (kind : String) (type : NodeId) : IsRefusal (.byValueAggregate kind type)
  | undescribable (kind : String) (type : NodeId) : IsRefusal (.undescribable kind type)
  | architecture (isa : Isa) : IsRefusal (.unsupportedArchitecture isa)

private theorem Error.IsRefusal.not_isPassedOver {e : Error} (refusal : e.IsRefusal) :
    CodeModule.isPassedOver e = false := by
  cases refusal <;> rfl

private theorem TypeTable.isPassedOver_of_sizeOf {table : TypeTable} {pointerSize : Nat}
    {id : NodeId}
    {e : Error} (failed : table.sizeOf pointerSize id = .error e) :
    CodeModule.isPassedOver e = true := by
  unfold sizeOf at failed
  generalize table.keys = idle at failed
  fun_induction sizeWithin table pointerSize idle id with
  | case11 idle id element count found inside ih =>
    apply ih
    cases measured : table.sizeWithin pointerSize (idle.erase id) element with
    | ok size =>
      rw [measured] at failed
      contradiction
    | error e =>
      rw [measured] at failed
      exact failed
  | _ =>
    first
    | contradiction
    | exact Except.error.inj failed ▸ rfl

namespace Reader
variable {s : Reading}

/-- The outcome of work from a state is as the verdict says, and the same pointers are followed after
it as before. -/
inductive Judged {α : Type} (s : Reading) : Verdict → EStateM.Result Error Reading α → Prop where
  | accepted {a : α} {t : Reading} (kept : t.following = s.following) :
    Judged s .accepted (.ok a t)
  | skipped {e : Error} {t : Reading} (kept : t.following = s.following)
    (passed : CodeModule.isPassedOver e = true) : Judged s .skipped (.error e t)
  | refused {e : Error} {t : Reading} (kept : t.following = s.following)
    (refusal : e.IsRefusal) : Judged s .refused (.error e t)

theorem return_judged {α : Type} (a : α) :
    Judged s .accepted ((pure a : Reader α) s) :=
  .accepted rfl

theorem throw_judged {α : Type} {e : Error} (refusal : e.IsRefusal) :
    Judged s .refused ((throw e : Reader α) s) := .refused rfl refusal

theorem readSealed_judged (side : Side) (about : TypeVar) (pointer : NodeId) :
    Judged s .accepted (readSealed side about pointer s) := .accepted rfl

theorem Judged.bind {α β : Type} {work : Reader α} {next : α → Reader β} {v w : Verdict}
    (before : Judged s v (work s))
    (after : ∀ a t, t.following = s.following → Judged t w (next a t)) :
    Judged s (v.andThen w) ((work >>= next) s) := by
  simp only [Bind.bind, EStateM.bind]
  cases worked : work s with
  | error e t =>
    rw [worked] at before
    cases before with
    | skipped kept passed => exact .skipped kept passed
    | refused kept refusal => exact .refused kept refusal
  | ok a t =>
    rw [worked] at before
    obtain ⟨kept⟩ := before
    have later := after a t kept
    dsimp only [Verdict.andThen]
    generalize next a t = outcome at later
    cases later with
    | accepted kept' => exact .accepted (kept'.trans kept)
    | skipped kept' passed => exact .skipped (kept'.trans kept) passed
    | refused kept' refusal => exact .refused (kept'.trans kept) refusal

private theorem collect_judged {α : Type} {part : α → Reader (List Constraint)} {parts : List α}
    {verdicts : List Verdict} {trail : List NodeId} (here : s.following = trail)
    (each : List.Forall₂ (fun a v => ∀ t : Reading, t.following = trail → Judged t v (part a t))
      parts verdicts) :
    Judged s (Verdict.first verdicts) (collect part parts s) := by
  induction each generalizing s with
  | nil => exact return_judged []
  | @cons a v parts verdicts judged _ ih =>
    refine (judged s here).bind fun found t kept => ?_
    have rest := (ih (kept.trans here)).bind fun more u _ => return_judged (s := u) (found ++ more)
    rwa [Verdict.andThen_accepted] at rest

theorem whileFollowing_judged {pointer : NodeId} {work : Reader (List Constraint)} {v : Verdict}
    (outside : pointer ∉ s.following)
    (judged : Judged { s with following := pointer :: s.following } v
      (work { s with following := pointer :: s.following })) :
    Judged s v (whileFollowing pointer work s) := by
  rw [whileFollowing, if_neg outside]
  generalize work { s with following := pointer :: s.following } = outcome at judged
  cases judged with
  | accepted kept => exact .accepted (by simp [kept])
  | skipped kept passed => exact .skipped (by simp [kept]) passed
  | refused kept refusal => exact .refused (by simp [kept]) refusal

end Reader

namespace CodeModule
open Reader
variable {m : CodeModule} {s : Reading} {go : Side → TypeVar → NodeId → Reader (List Constraint)}
  {side : Side} {about : TypeVar}

theorem readPart_refused (unsupported : m.isa.sizes? = none) (part : Nat × NodeId) :
    Judged s .refused (m.readPart go side about part s) := by
  have failed : m.reached side about part.1 part.2 = .error (.unsupportedArchitecture m.isa) := by
    rw [reached, typeSize, sizes, unsupported]
    rfl
  rw [readPart, failed]
  exact throw_judged (.architecture m.isa)

theorem readPart_skipped {words : WordSizes} (supported : m.isa.sizes? = some words)
    {part : Nat × NodeId} (unsized : ∀ size, ¬ m.types.SizeIs words.pointer part.2 size) :
    Judged s .skipped (m.readPart go side about part s) := by
  cases measured : m.types.sizeOf words.pointer part.2 with
  | ok size => exact absurd (TypeTable.sizeOf_eq_ok_iff.mp measured) (unsized size)
  | error e =>
    have failed : m.reached side about part.1 part.2 = .error e := by
      simp only [reached, typeSize, sizes, supported, measured]
      rfl
    rw [readPart, failed]
    exact .skipped rfl (TypeTable.isPassedOver_of_sizeOf measured)

theorem readPart_judged {words : WordSizes} (supported : m.isa.sizes? = some words)
    {part : Nat × NodeId} {size : Nat} (sized : m.types.SizeIs words.pointer part.2 size)
    {v : Verdict} (goes : ∀ about, Judged s v (go side about part.2 s)) :
    Judged s v (m.readPart go side about part s) := by
  have measured := (typeSize_eq_ok_iff m).mpr ⟨words, supported, sized⟩
  rw [readPart, reached, measured]
  exact goes _

theorem readPointee_hollow {pointer pointee : NodeId} {node : TypeNode}
    (found : m.types.get? pointee = some node) (hollow : node.parts pointee = []) :
    Judged s .accepted (m.readPointee go side about pointer pointee s) := by
  unfold readPointee
  rw [found]
  cases node with
  | void | function => exact readSealed_judged side about pointer
  | struct size fields =>
    obtain rfl : fields = [] := hollow
    exact readSealed_judged side about pointer
  | bool | char | int | float | unknown | pointer | array => contradiction

theorem readPointee_judged {pointer pointee : NodeId} {node : TypeNode}
    (found : m.types.get? pointee = some node) {verdicts : List Verdict}
    (each : List.Forall₂ (fun part v => ∀ t : Reading, t.following = s.following →
      Judged t v (m.readPart go side about part t)) (node.parts pointee) verdicts) :
    Judged s (Verdict.first verdicts) (m.readPointee go side about pointer pointee s) := by
  have single (only : node.parts pointee = [(0, pointee)]) :
      Judged s (Verdict.first verdicts) (m.readPart go side about (0, pointee) s) := by
    rw [only] at each
    obtain _ | ⟨judged, ⟨⟩⟩ := each
    simpa [Verdict.first] using judged s rfl
  cases parts : node.parts pointee with
  | nil =>
    rw [parts] at each
    cases each
    exact readPointee_hollow found parts
  | cons part rest =>
    unfold readPointee
    rw [found]
    cases node with
    | void | function => contradiction
    | struct size fields =>
      obtain rfl : fields = part :: rest := parts
      exact collect_judged rfl each
    | bool | char | int | float | unknown | pointer | array => exact single rfl

private theorem forall₂_mapIdx {α β γ : Type} {R : α → γ → Prop} {Q : β → γ → Prop}
    {f : Nat → α → β}
    {as : List α} {cs : List γ} (step : ∀ i a c, R a c → Q (f i a) c)
    (related : List.Forall₂ R as cs) : List.Forall₂ Q (as.mapIdx f) cs := by
  induction related generalizing f with
  | nil => exact .nil
  | cons first _ ih =>
    rw [List.mapIdx_cons]
    exact .cons (step 0 _ _ first) (ih fun i => step (i + 1))

theorem readPrototype_judged (name : String) {ret : NodeId} {params : List NodeId}
    {verdicts : List Verdict} {last : Verdict} (idle : s.following = [])
    (arguments : List.Forall₂ (fun id v => ∀ about (t : Reading), t.following = [] →
      Judged t v (m.readWhole .left about id t)) params verdicts)
    (result : ∀ about (t : Reading), t.following = [] →
      Judged t last (m.readWhole .right about ret t)) :
    Judged s (Verdict.first (verdicts ++ [last]))
      (m.readPrototype name (some ret) (params.map some) s) := by
  have inputs : Judged s (Verdict.first verdicts) (collect (m.readSlot name .left)
      ((params.map some).mapIdx fun i param => (.input (UInt64.ofNat i), param)) s) := by
    have slots : List.Forall₂ (fun slot v => ∀ label (t : Reading), t.following = [] →
        Judged t v (m.readSlot name .left (label, slot) t)) (params.map some) verdicts := by
      apply List.forall₂_map_left_iff.mpr
      apply arguments.imp
      intro id v judged label t idle
      exact judged _ t idle
    exact collect_judged idle (forall₂_mapIdx (fun i slot v judged => judged _) slots)
  rw [Verdict.first_append]
  refine inputs.bind fun found t kept => ?_
  have output := result ⟨name, [.output]⟩ t (kept.trans idle)
  have rest := Judged.bind output fun more u _ =>
    return_judged (s := u) (OrdSet.ofList (found ++ more))
  rwa [Verdict.andThen_accepted] at rest

/-- Functions that are each judged by themselves are read to the end unless one of them is refused. -/
theorem readInto_judged {judge : NodeId → Verdict} {functions : List NodeId}
    {all : OrdMap String ConstraintSet} (idle : s.following = [])
    (each : ∀ f ∈ functions, ∀ t : Reading, t.following = [] →
      Judged t (judge f) (m.readFunction f t)) :
    ((∃ result t, m.readInto all functions s = .ok result t) ↔
      ∀ f ∈ functions, judge f ≠ .refused) ∧
    ∀ e t, m.readInto all functions s = .error e t → e.IsRefusal := by
  induction functions generalizing all s with
  | nil => exact ⟨iff_of_true ⟨all, s, rfl⟩ (by simp), fun e t failed => nomatch failed⟩
  | cons function rest ih =>
    have later (all : OrdMap String ConstraintSet) {t : Reading} (idle : t.following = []) :=
      @ih t all idle fun f inside => each f (List.mem_cons_of_mem _ inside)
    have judged := each function List.mem_cons_self s idle
    simp only [readInto, List.forall_mem_cons]
    generalize judge function = verdict at judged
    generalize m.readFunction function s = outcome at judged
    cases judged with
    | @accepted found t kept =>
      cases found with
      | none => simpa using later all (kept.trans idle)
      | some entry => simpa using later _ (kept.trans idle)
    | @skipped e t kept passed =>
      simp only [passed, if_true]
      have rest := @later all { t with notices := t.notices ++ [.skippedPrototype function e] }
        (kept.trans idle)
      simpa using rest
    | @refused e t kept refusal =>
      simp only [refusal.not_isPassedOver, Bool.false_eq_true, if_false]
      refine ⟨iff_of_false (by simp) (by simp), ?_⟩
      intro e' t' same
      obtain ⟨rfl, rfl⟩ := EStateM.Result.error.inj same
      exact refusal

end CodeModule
end TypeRecovery
