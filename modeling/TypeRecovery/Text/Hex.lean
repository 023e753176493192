/-! Hexadecimal numbers in identifiers and addresses. -/
namespace TypeRecovery.Text

/-- Lower-case hexadecimal digits, filled with zeros to at least eight. -/
def hex8 (n : Nat) : String :=
  let digits := Nat.toDigits 16 n
  String.ofList (List.replicate (8 - digits.length) '0' ++ digits)

end TypeRecovery.Text
