import TypeRecovery.Folder.Basic
import TypeRecovery.Rules.Relations
import TypeRecovery.Settings

/-! Engines that evaluate the inference rules over a folder of facts. -/
namespace TypeRecovery

abbrev Engine := Folder → List String → Except Error Relations

namespace Engine

/-- An engine with prepared answers; a relation it does not know is empty. -/
def ofAnswers (answers : Relations) : Engine := fun _ names =>
  .ok (OrdMap.ofList (names.map fun name => (name, (answers.get? name).getD [])))

end Engine

structure RuleTool where
  tool : Option String := none
  program : String
  compiled : Bool

inductive Launch where
  | failed (reason : String)
  | exited (code : Nat) (output : RawFiles)

namespace RuleTool

def ofProgram (settings : Settings) (program : String) : RuleTool :=
  { program, compiled := settings.compileRules }

def arguments (r : RuleTool) (facts output : String) : List String :=
  ["--fact-dir=" ++ facts, "--output-dir=" ++ output, "--macro='DEBUG=1'"]
    ++ (if r.compiled then ["--compile", "--generate=" ++ output ++ "/prog.cpp"] else [])
    ++ [r.program]

/-- The tool to run, which is the given one or else the one on the search path, with its
arguments. No argument can hold a NUL byte. -/
def command (r : RuleTool) (onPath : Option String) (facts output : String) :
    Except Error (String × List String) :=
  match r.tool.or onPath with
  | none => .error (.engineNotFound "souffle")
  | some tool =>
    if (r.arguments facts output).any fun argument => '\x00' ∈ argument.toList then
      .error (.system "nul byte found in provided data")
    else .ok (tool, r.arguments facts output)

def collect (tool : String) (names : List String) :
    Launch → Except Error Relations × List Notice
  | .failed reason => (.error (.system reason), [])
  | .exited 0 output => Relations.read output names
  | .exited code _ => (.error (.toolFailed tool ("exit status: " ++ Nat.repr code)), [])

def execute (r : RuleTool) (onPath : Option String) (launch : String → List String → Launch)
    (facts output : String) (names : List String) : Except Error Relations × List Notice :=
  match r.command onPath facts output with
  | .error e => (.error e, [])
  | .ok (tool, arguments) => collect tool names (launch tool arguments)

end RuleTool
end TypeRecovery
