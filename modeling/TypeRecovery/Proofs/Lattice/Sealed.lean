import TypeRecovery.Proofs.Lattice.Ground
import TypeRecovery.Prototype.Reading

/-! Atoms of sealed types. Different types have different atoms, because the hexadecimal text of a
number tells the number, and none of them is a fixed atom, because none of those begins alike. -/
namespace TypeRecovery

namespace Text

def hexDigit (c : Char) : Nat := "0123456789abcdef".toList.idxOf c

def hexValue (digits : List Char) : Nat := digits.foldl (fun n c => n * 16 + hexDigit c) 0

private theorem hexDigit_digitChar {d : Nat} (small : d < 16) : hexDigit d.digitChar = d := by
  have all : ∀ d < 16, hexDigit (Nat.digitChar d) = d := by decide
  exact all d small

private theorem hexValue_append (digits : List Char) (c : Char) :
    hexValue (digits ++ [c]) = hexValue digits * 16 + hexDigit c := by
  rw [hexValue, List.foldl_append]
  rfl

private theorem hexValue_toDigits (n : Nat) : hexValue (Nat.toDigits 16 n) = n := by
  induction n using Nat.strongRecOn with
  | ind n ih =>
    by_cases small : n < 16
    · rw [Nat.toDigits_of_lt_base small, ← List.nil_append [_], hexValue_append,
        hexDigit_digitChar small]
      simp [hexValue]
    · rw [Nat.toDigits_of_base_le (by decide) (Nat.le_of_not_lt small), hexValue_append,
        ih (n / 16) (by omega), hexDigit_digitChar (Nat.mod_lt n (by decide))]
      omega

private theorem hexValue_zeros (count : Nat) (digits : List Char) :
    hexValue (List.replicate count '0' ++ digits) = hexValue digits := by
  have zero : hexValue (List.replicate count '0') = 0 := by
    induction count with
    | zero => rfl
    | succ count ih =>
      rw [List.replicate_succ', hexValue_append, ih]
      decide
  rw [hexValue, List.foldl_append]
  exact congrArg (fun start => digits.foldl (fun n c => n * 16 + hexDigit c) start) zero

theorem hex8_injective {a b : Nat} (same : hex8 a = hex8 b) : a = b := by
  have digits := congrArg (fun s => hexValue s.toList) same
  simpa only [hex8, String.toList_ofList, hexValue_zeros, hexValue_toDigits] using digits

end Text

namespace Reading

theorem sealedAtom_injective {p q : NodeId} (same : sealedAtom p = sealedAtom q) : p = q := by
  have names : "opaque_" ++ p.text = "opaque_" ++ q.text := congrArg TypeVar.base same
  have texts : p.text = q.text := by
    have lists := congrArg String.toList names
    simp only [String.toList_append] at lists
    exact String.toList_inj.mp (List.append_cancel_left lists)
  have values : p.value = q.value := Text.hex8_injective texts
  cases p
  cases q
  exact congrArg NodeId.mk values

theorem sealedAtom_ground? (p : NodeId) : (sealedAtom p).ground? = none := by
  have starts : ∀ g ∈ Ground.all, g.name.toList.head? ≠ some 'o' := by decide +kernel
  have absent : Ground.ofName? (Concrete.sealedName p) = none := by
    rw [Ground.ofName?, List.find?_eq_none]
    intro g listed same
    have name : g.name = Concrete.sealedName p := by simpa using same
    apply starts g listed
    rw [name, Concrete.sealedName, String.toList_append]
    rfl
  exact absent

end Reading
end TypeRecovery
