import TypeRecovery.Text.Printable

/-! Quoted texts in messages and drawings. -/
namespace TypeRecovery.Text

def byNumber (c : Char) : List Char :=
  ['\x5c', 'u', '\x7b'] ++ Nat.toDigits 16 c.toNat ++ ['\x7d']

/-- In a message, what can be printed stands for itself. -/
def quoteChar (c : Char) : List Char :=
  match c with
  | '\x00' => ['\x5c', '0']
  | '\t' => ['\x5c', 't']
  | '\r' => ['\x5c', 'r']
  | '\n' => ['\x5c', 'n']
  | '\x22' => ['\x5c', '\x22']
  | '\x5c' => ['\x5c', '\x5c']
  | c => if isPrintable c then [c] else byNumber c

def quote (s : String) : List Char := '\x22' :: s.toList.flatMap quoteChar ++ ['\x22']

def quoteList (l : List String) : String :=
  "[" ++ ", ".intercalate (l.map fun s => String.ofList (quote s)) ++ "]"

/-- In a drawing, only ASCII stands for itself. -/
def escapeChar (c : Char) : List Char :=
  match c with
  | '\t' => ['\x5c', 't']
  | '\r' => ['\x5c', 'r']
  | '\n' => ['\x5c', 'n']
  | '\x27' => ['\x5c', '\x27']
  | '\x22' => ['\x5c', '\x22']
  | '\x5c' => ['\x5c', '\x5c']
  | c => if 0x20 ≤ c.toNat ∧ c.toNat ≤ 0x7e then [c] else byNumber c

def escape (s : String) : String := String.ofList (s.toList.flatMap escapeChar)

end TypeRecovery.Text
