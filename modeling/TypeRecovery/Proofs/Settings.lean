import TypeRecovery.Settings

/-! Settings over the course of a process. The first request decides: what it installs is what every
read sees, and if it is a read, every read sees the default settings. Of the installations that
come later, just the first one is refused. A refusal leaves its settings in the waiting place, so
that the place is not used up any more, and from then on installations are accepted without
effect. -/
namespace TypeRecovery

inductive SettingsRequest where
  | read
  | install (flags : List Flag)

inductive SettingsAnswer where
  | seen (settings : Settings)
  | installed
  | refused
deriving DecidableEq

def SettingsRequest.installs : SettingsRequest → Bool
  | read => false
  | install _ => true

/-- The settings that the first of some requests decides on. -/
def Settings.decided : List SettingsRequest → Settings
  | .install flags :: _ => ofFlags flags
  | _ => {}

namespace SettingsCell

def serve (cell : SettingsCell) : SettingsRequest → SettingsAnswer × SettingsCell
  | .read => (.seen cell.read.1, cell.read.2)
  | .install flags =>
    let outcome := cell.install (.ofFlags flags)
    (if outcome.1 then .installed else .refused, outcome.2)

def afterAll (cell : SettingsCell) : List SettingsRequest → SettingsCell
  | [] => cell
  | request :: rest => (cell.serve request).2.afterAll rest

def answers (cell : SettingsCell) : List SettingsRequest → List SettingsAnswer
  | [] => []
  | request :: rest => (cell.serve request).1 :: (cell.serve request).2.answers rest

private theorem answers_getElem?_length (cell : SettingsCell) (before after : List SettingsRequest)
    (request : SettingsRequest) :
    (cell.answers (before ++ request :: after))[before.length]? =
      some ((cell.afterAll before).serve request).1 := by
  induction before generalizing cell with
  | nil => rfl
  | cons first rest ih => exact ih (cell.serve first).2

private theorem serve_first (request : SettingsRequest) :
    (serve {} request).2 = ⟨none, some (.decided [request])⟩ := by
  cases request <;> rfl

/-- Once settings are fixed, they stay, and the waiting place is taken by any installation. -/
theorem serve_of_fixed {cell : SettingsCell} {s : Settings} (fixed : cell.fixed = some s)
    (request : SettingsRequest) :
    (cell.serve request).2.fixed = some s ∧
      (cell.serve request).2.waiting.isSome = (cell.waiting.isSome || request.installs) := by
  obtain ⟨waiting, _⟩ := cell
  subst fixed
  cases request with
  | read => exact ⟨rfl, (Bool.or_false _).symm⟩
  | install flags => cases waiting <;> exact ⟨rfl, rfl⟩

private theorem afterAll_of_fixed {cell : SettingsCell} {s : Settings} (fixed : cell.fixed = some s)
    (requests : List SettingsRequest) :
    (cell.afterAll requests).fixed = some s ∧ (cell.afterAll requests).waiting.isSome =
      (cell.waiting.isSome || requests.any SettingsRequest.installs) := by
  induction requests generalizing cell with
  | nil => exact ⟨fixed, (Bool.or_false _).symm⟩
  | cons request rest ih =>
    obtain ⟨stays, waits⟩ := serve_of_fixed fixed request
    obtain ⟨fixed', waits'⟩ := ih stays
    refine ⟨fixed', ?_⟩
    rw [afterAll, waits', waits, List.any_cons, Bool.or_assoc]

private theorem afterAll_cons (first : SettingsRequest) (rest : List SettingsRequest) :
    (afterAll {} (first :: rest)).fixed = some (.decided (first :: rest)) ∧
      (afterAll {} (first :: rest)).waiting.isSome = rest.any SettingsRequest.installs := by
  have fixed : (serve {} first).2.fixed = some (.decided (first :: rest)) := by
    rw [serve_first]
    cases first <;> rfl
  obtain ⟨stays, waits⟩ := afterAll_of_fixed fixed rest
  refine ⟨stays, ?_⟩
  rw [afterAll, waits, serve_first]
  rfl

private theorem serve_read {cell : SettingsCell} {s : Settings} (fixed : cell.fixed = some s) :
    (cell.serve .read).1 = .seen s := by
  rw [serve, read, fixed]

private theorem serve_install (cell : SettingsCell) (flags : List Flag) :
    (cell.serve (.install flags)).1 =
    if cell.waiting.isSome then .installed else .refused := by
  obtain ⟨waiting, _⟩ := cell
  cases waiting <;> rfl

/-- Every read sees the settings that the first request decided on. An installation is accepted if
nothing was asked before it, or if the first request is followed by another installation before
it; so it is refused just if it is the first one after the first request. -/
theorem answers_decided (before after : List SettingsRequest) :
    (answers {} (before ++ .read :: after))[before.length]? =
      some (.seen (.decided (before ++ .read :: after))) ∧
    ∀ flags, (answers {} (before ++ .install flags :: after))[before.length]? =
      some (if before = [] ∨ before.tail.any SettingsRequest.installs then .installed
        else .refused) := by
  simp only [answers_getElem?_length, Option.some.injEq, serve_install]
  cases before with
  | nil => exact ⟨rfl, fun _ => rfl⟩
  | cons first rest =>
    obtain ⟨fixed, waits⟩ := afterAll_cons first rest
    refine ⟨?_, fun flags => ?_⟩
    · rw [serve_read fixed]
      cases first <;> rfl
    · simp [waits]

/-- A third installation is accepted again. -/
theorem answers_third_install :
    answers {} [.install [], .install [], .install []] = [.installed, .refused, .installed] := by
  decide

end SettingsCell
end TypeRecovery
