/-! Settings of a recovery run, made from flags and fixed once per process. -/
namespace TypeRecovery

structure Settings where
  /-- Recorded types replace generated constraints of the same function; otherwise both count. -/
  annotationsOverride : Bool := true
  readAnnotations : Bool := true
  compileRules : Bool := false
  drawSketches : Bool := true
  printTypes : Bool := true
  logDerived : Bool := true
deriving DecidableEq

inductive Flag where
  | uniteAnnotations
  | ignoreAnnotations
  | compileRules
  | omitDrawings
  | omitTypes
  | omitDerived
deriving DecidableEq

namespace Flag

def all : List Flag :=
  [uniteAnnotations, ignoreAnnotations, compileRules, omitDrawings, omitTypes, omitDerived]

def name : Flag → String
  | uniteAnnotations => "union-ground-truth-with-datalog"
  | ignoreAnnotations => "disable-ground-truth-types"
  | compileRules => "compile-datalog-program"
  | omitDrawings => "disable-sketch-dot-files"
  | omitTypes => "disable-user-type-printing"
  | omitDerived => "disable-derived-constraint-logging"

/-- Whether a text is the name of a flag; the case of ASCII letters may be ignored. -/
def isNamed (flag : Flag) (ignoreCase : Bool) (s : String) : Bool :=
  if ignoreCase then flag.name.toList.map Char.toLower == s.toList.map Char.toLower
  else flag.name == s

def ofText? (ignoreCase : Bool) (s : String) : Option Flag :=
  all.find? fun flag => flag.isNamed ignoreCase s

def unknownMessage (s : String) : String := "Invalid variant: " ++ s

end Flag

namespace Settings

def apply (s : Settings) : Flag → Settings
  | .uniteAnnotations => { s with annotationsOverride := false }
  | .ignoreAnnotations => { s with readAnnotations := false }
  | .compileRules => { s with compileRules := true }
  | .omitDrawings => { s with drawSketches := false }
  | .omitTypes => { s with printTypes := false }
  | .omitDerived => { s with logDerived := false }

def ofFlags (flags : List Flag) : Settings := flags.foldl apply {}

end Settings

/-- The settings of a process: those waiting to be fixed, if the place for them is not used up,
and those fixed by the first use. -/
structure SettingsCell where
  waiting : Option (Option Settings) := some none
  fixed : Option Settings := none
deriving DecidableEq

namespace SettingsCell

/-- The first use fixes the settings that wait, or the default ones. -/
def read (cell : SettingsCell) : Settings × SettingsCell :=
  match cell.fixed with
  | some s => (s, cell)
  | none =>
    let s := (cell.waiting.getD none).getD {}
    (s, ⟨none, some s⟩)

/-- Puts settings in the waiting place and fixes them. This is refused if the place was used up,
and has no effect on settings that are fixed. -/
def install (cell : SettingsCell) (s : Settings) : Bool × SettingsCell :=
  let placed : SettingsCell := { cell with waiting := some (some s) }
  if cell.waiting.isSome then (true, placed.read.2) else (false, placed)

end SettingsCell
end TypeRecovery
