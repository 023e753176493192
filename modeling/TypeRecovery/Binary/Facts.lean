import TypeRecovery.Binary.Basic
import TypeRecovery.Folder.Basic
import TypeRecovery.Text.Rows
import TypeRecovery.Text.Uppercase

/-! The relations that describe a binary to the inference rules, a file for each. -/
namespace TypeRecovery

def boolText (b : Bool) : String := if b then "true" else "false"

structure EdgeRows where
  toBlocks : List (List String)
  toSymbols : List (List String)
  toAnywhere : List (List String)
deriving DecidableEq

namespace Edge

def labelColumns (e : Edge) : List String :=
  [boolText e.conditional, boolText (!e.direct), e.kind.name]

def blockRow? (b : Binary) (e : Edge) : Option (List String) := do
  let source ← b.codeBlock? e.source
  let target ← b.codeBlock? e.target
  return [Nat.repr source.address, Nat.repr target.address] ++ e.labelColumns

/-- The source of an edge that leads out of the known code. -/
def proxySource? (b : Binary) (e : Edge) : Option CodeBlock := do
  let source ← b.codeBlock? e.source
  if (b.codeBlock? e.target).isNone && b.isProxy e.target then some source else none

def symbolRow? (b : Binary) (e : Edge) : Option (List String) := do
  let source ← e.proxySource? b
  let symbol ← b.proxySymbol? e.target
  return [Nat.repr source.address, symbol.name] ++ e.labelColumns

def anywhereRow? (b : Binary) (e : Edge) : Option (List String) := do
  let source ← e.proxySource? b
  if (b.proxySymbol? e.target).isSome then none
  else some ([Nat.repr source.address] ++ e.labelColumns)

end Edge

namespace Binary

def edgeRows (b : Binary) : EdgeRows where
  toBlocks := b.edges.filterMap (Edge.blockRow? b)
  toSymbols := b.edges.filterMap (Edge.symbolRow? b)
  toAnywhere := b.edges.filterMap (Edge.anywhereRow? b)

def codeBlocks (b : Binary) : List CodeBlock := b.modules.flatMap fun m => m.codeBlocks.values

def blockRows (b : Binary) : List (List String) :=
  b.codeBlocks.map fun block => [Nat.repr block.address, Nat.repr block.size]

def instructions (b : Binary) : List (CodeBlock × Instruction) :=
  b.codeBlocks.flatMap fun block => block.instructions.map fun i => (block, i)

def instructionRows (b : Binary) : List (List String) :=
  b.instructions.map fun entry => [Nat.repr entry.2.address, Nat.repr entry.1.address]

/-- Registers are written in upper case, as the rules spell them. -/
def registerRows (b : Binary) (registers : Instruction → List String) : List (List String) :=
  b.instructions.flatMap fun entry =>
    (registers entry.2).map fun register => [Nat.repr entry.2.address, Text.upper register]

end Binary

namespace Facts

def fileName (relation : String) : String := relation ++ ".facts"

def writeRows (relation : String) (rows : List (List String)) : Writing Unit :=
  Folder.write (fileName relation) (Text.encodeRows rows)

def embedded (b : Binary) : Writing Unit :=
  match b.modules.head? with
  | none => pure ()
  | some m => (m.inputRelations.entries ++ m.outputRelations.entries).forM fun entry =>
      Folder.write (fileName entry.1) entry.2.text

def instructions (b : Binary) : Writing Unit := do
  writeRows "block_instruction" b.instructionRows
  writeRows "instruction_read_access" (b.registerRows Instruction.reads)
  writeRows "instruction_write_access" (b.registerRows Instruction.writes)

def blocks (b : Binary) : Writing Unit := writeRows "block" b.blockRows

def edges (b : Binary) : Writing Unit := do
  writeRows "cfg_edge" b.edgeRows.toBlocks
  writeRows "cfg_edge_to_top" b.edgeRows.toAnywhere
  writeRows "cfg_edge_to_symbol" b.edgeRows.toSymbols

def controlFlow (b : Binary) : Writing Unit := do
  instructions b
  blocks b
  edges b

def architecture (b : Binary) : Writing Unit :=
  match b.modules.head? with
  | none => pure ()
  | some m =>
    match m.sizes with
    | .error e => throw e
    | .ok sizes => Folder.write (fileName "arch.pointer_size") (Nat.repr sizes.pointer)

def all (b : Binary) : Writing Unit := do
  embedded b
  controlFlow b
  architecture b

end Facts
end TypeRecovery
