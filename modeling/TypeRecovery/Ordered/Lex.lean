/-! Comparing by one key and then by another. -/
namespace TypeRecovery

variable {α β γ : Type} [Ord β] [Ord γ] [Std.LawfulEqOrd β] [Std.LawfulEqOrd γ]
  {first : α → β} {second : α → γ}

theorem keys_eq_of_compareLex {a b : α}
    (same : compareLex (compareOn first) (compareOn second) a b = .eq) :
    first a = first b ∧ second a = second b :=
  (Ordering.then_eq_eq.1 same).imp Std.LawfulEqCmp.eq_of_compare Std.LawfulEqCmp.eq_of_compare

end TypeRecovery
