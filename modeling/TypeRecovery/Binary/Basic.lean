import TypeRecovery.Binary.TypeTable
import TypeRecovery.Notice
import TypeRecovery.Ordered.Lex
import TypeRecovery.Ordered.Set

/-! Disassembled binaries: modules of blocks, symbols and functions, and the control flow between
blocks. Of an instruction, only the registers it reads and writes are kept. -/
namespace TypeRecovery

structure Instruction where
  address : Nat
  reads : List String
  writes : List String
deriving DecidableEq

structure CodeBlock where
  address : Nat
  size : Nat
  instructions : List Instruction
deriving DecidableEq

namespace CodeBlock

/-- One past the last address, counted in 64 bits. -/
def limit (block : CodeBlock) : UInt64 := UInt64.ofNat (block.address + block.size)

def covers (block : CodeBlock) (address : Nat) : Bool :=
  block.address ≤ address && address < block.limit.toNat

end CodeBlock

structure SymbolEntry where
  id : NodeId
  name : String
  referent : Option NodeId
deriving DecidableEq

structure Routine where
  id : NodeId
  /-- The first name is the one in use. -/
  names : List String
  entries : OrdSet NodeId
  blocks : OrdSet NodeId
deriving DecidableEq

def Routine.name (f : Routine) : String := f.names.headD ""

structure Position where
  block : NodeId
  displacement : Nat
deriving DecidableEq

namespace Position

instance : Ord Position := ⟨compareLex (compareOn block) (compareOn displacement)⟩

instance : Std.TransOrd Position :=
  inferInstanceAs (Std.TransCmp (compareLex (compareOn block) (compareOn displacement)))

instance : Std.LawfulEqOrd Position where
  eq_of_compare {a b} same := by
    obtain ⟨_, _⟩ := keys_eq_of_compareLex same
    cases a
    cases b
    congr

end Position

/-- A relation that the disassembler left behind, as text. -/
structure EmbeddedRelation where
  header : String
  text : String
deriving DecidableEq

structure CodeModule where
  name : String
  isa : Isa
  codeBlocks : OrdMap NodeId CodeBlock := ∅
  proxyBlocks : OrdSet NodeId := ∅
  symbols : List SymbolEntry := []
  functions : List Routine := []
  types : TypeTable := ∅
  /-- The function type recorded for a function. -/
  prototypes : OrdMap NodeId NodeId := ∅
  comments : OrdMap Position String := ∅
  inputRelations : OrdMap String EmbeddedRelation := ∅
  outputRelations : OrdMap String EmbeddedRelation := ∅

namespace CodeModule

def sizes (m : CodeModule) : Except Error WordSizes :=
  match m.isa.sizes? with
  | some sizes => .ok sizes
  | none => .error (.unsupportedArchitecture m.isa)

def addCodeBlock (m : CodeModule) (block : CodeBlock) : Alloc (NodeId × CodeModule) := do
  let id ← Alloc.fresh
  return (id, { m with codeBlocks := m.codeBlocks.insert id block })

def addProxyBlock (m : CodeModule) : Alloc (NodeId × CodeModule) := do
  let id ← Alloc.fresh
  return (id, { m with proxyBlocks := m.proxyBlocks.insert id })

def addSymbol (m : CodeModule) (name : String) (referent : Option NodeId) :
    Alloc (NodeId × CodeModule) := do
  let id ← Alloc.fresh
  return (id, { m with symbols := m.symbols ++ [⟨id, name, referent⟩] })

/-- Adds a function entered at a block, and a symbol of its name for that block. -/
def addFunction (m : CodeModule) (name : String) (entry : NodeId) (others : List NodeId) :
    Alloc (NodeId × CodeModule) := do
  let id ← Alloc.fresh
  let (_, m) ← m.addSymbol name (some entry)
  let f : Routine := ⟨id, [name], OrdSet.ofList [entry], (OrdSet.ofList others).insert entry⟩
  return (id, { m with functions := m.functions ++ [f] })

def addType (m : CodeModule) (node : TypeNode) : Alloc (NodeId × CodeModule) := do
  let id ← Alloc.fresh
  return (id, { m with types := m.types.insert id node })

def function? (m : CodeModule) (id : NodeId) : Option Routine :=
  m.functions.find? fun f => f.id = id

/-- The lowest address at which a function is entered. -/
def entryAddress? (m : CodeModule) (f : Routine) : Option Nat :=
  (f.entries.toList.filterMap fun b => (m.codeBlocks.get? b).map CodeBlock.address).min?

def blocksOn (m : CodeModule) (address : Nat) : List (NodeId × CodeBlock) :=
  m.codeBlocks.entries.filter fun entry => entry.2.covers address

def locate? (m : CodeModule) (address : Nat) : Option Position :=
  match m.blocksOn address with
  | [] => none
  | (id, block) :: _ => some ⟨id, address - block.address⟩

def locateNotices (m : CodeModule) (address : Nat) : List Notice :=
  if 1 < (m.blocksOn address).length then [.manyBlocks address] else []

def references (m : CodeModule) (node : NodeId) : List SymbolEntry :=
  m.symbols.filter fun s => s.referent = some node

/-- The name of a function in constraints and type tables. A name with an at sign or a full stop
is no identifier there, and the entry address stands in for it. -/
def functionName (m : CodeModule) (f : Routine) : String :=
  if '@' ∈ f.name.toList ∨ '.' ∈ f.name.toList then
    "FUN_" ++ Nat.repr ((m.entryAddress? f).getD 0)
  else f.name

end CodeModule

inductive EdgeKind where
  | branch
  | call
  | fallthrough
  | ret
  | syscall
  | sysret
deriving DecidableEq

namespace EdgeKind

def all : List EdgeKind := [branch, call, fallthrough, ret, syscall, sysret]

def name : EdgeKind → String
  | branch => "branch"
  | call => "call"
  | fallthrough => "fallthrough"
  | ret => "return"
  | syscall => "syscall"
  | sysret => "sysret"

def ofName? (s : String) : Option EdgeKind := all.find? fun kind => kind.name == s

end EdgeKind

structure Edge where
  source : NodeId
  target : NodeId
  kind : EdgeKind
  conditional : Bool
  direct : Bool
deriving DecidableEq

structure Binary where
  modules : List CodeModule := []
  edges : List Edge := []

namespace Binary

def codeBlock? (b : Binary) (id : NodeId) : Option CodeBlock :=
  b.modules.findSome? fun m => m.codeBlocks.get? id

def isProxy (b : Binary) (id : NodeId) : Bool := b.modules.any fun m => id ∈ m.proxyBlocks

/-- The first symbol for a proxy block in a module that owns it. -/
def proxySymbol? (b : Binary) (id : NodeId) : Option SymbolEntry :=
  (b.modules.filter fun m => id ∈ m.proxyBlocks).findSome? fun m => (m.references id).head?

end Binary
end TypeRecovery
