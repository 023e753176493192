/-! Decimal numbers as they stand in constraint texts and relation rows: an optional sign and
at least one ASCII digit, with a value that fits into 64 bits. -/
namespace TypeRecovery.Text

def digit? (c : Char) : Option Nat :=
  if '0' ≤ c ∧ c ≤ '9' then some (c.toNat - '0'.toNat) else none

def digitsFrom? (value : Nat) : List Char → Option Nat
  | [] => some value
  | c :: rest => (digit? c).bind fun d => digitsFrom? (10 * value + d) rest

def digits? : List Char → Option Nat
  | [] => none
  | s => digitsFrom? 0 s

/-- An unsigned number of 64 bits; a plus sign may stand in front. -/
def word? (s : List Char) : Option UInt64 :=
  let body := match s with
    | '+' :: rest => rest
    | _ => s
  (digits? body).bind fun n => if n < UInt64.size then some (UInt64.ofNat n) else none

/-- A signed number of 64 bits in two's complement; either sign may stand in front. -/
def offset? (s : List Char) : Option Int64 :=
  match s with
  | '-' :: rest => (digits? rest).bind fun n =>
      if n ≤ UInt64.size / 2 then some (Int64.ofInt (-n)) else none
  | '+' :: rest => (digits? rest).bind fun n =>
      if n < UInt64.size / 2 then some (Int64.ofInt n) else none
  | _ => (digits? s).bind fun n =>
      if n < UInt64.size / 2 then some (Int64.ofInt n) else none

def wordText (w : UInt64) : String := Nat.repr w.toNat

/-- So many bytes in bits, counted in 64 bits. -/
def bitsText (bytes : Nat) : String := wordText (UInt64.ofNat (bytes * 8))

def offsetText (o : Int64) : String :=
  if o.toInt < 0 then "-" ++ Nat.repr o.toInt.natAbs else Nat.repr o.toInt.natAbs

end TypeRecovery.Text
