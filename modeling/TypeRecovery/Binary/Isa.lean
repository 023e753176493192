/-! Instruction sets and the widths they fix. -/
namespace TypeRecovery

inductive Isa where
  | undefined
  | ia32
  | ppc32
  | x64
  | arm
  | validButUnsupported
  | ppc64
  | arm64
  | mips32
  | mips64
deriving DecidableEq

/-- Sizes in bytes. -/
structure WordSizes where
  pointer : Nat
  register : Nat
deriving DecidableEq

namespace Isa

def all : List Isa :=
  [undefined, ia32, ppc32, x64, arm, validButUnsupported, ppc64, arm64, mips32, mips64]

def name : Isa → String
  | undefined => "Undefined"
  | ia32 => "IA32"
  | ppc32 => "PPC32"
  | x64 => "X64"
  | arm => "ARM"
  | validButUnsupported => "ValidButUnsupported"
  | ppc64 => "PPC64"
  | arm64 => "ARM64"
  | mips32 => "MIPS32"
  | mips64 => "MIPS64"

def ofName? (s : String) : Option Isa := all.find? fun isa => isa.name == s

def sizes? : Isa → Option WordSizes
  | x64 | arm64 | mips64 | ppc64 => some ⟨8, 8⟩
  | ppc32 => some ⟨4, 8⟩
  | arm | ia32 | mips32 => some ⟨4, 4⟩
  | undefined | validButUnsupported => none

end Isa
end TypeRecovery
