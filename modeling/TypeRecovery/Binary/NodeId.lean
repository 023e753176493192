import TypeRecovery.Text.Hex

/-! Identifiers of blocks, symbols, functions and types, and the supply they are taken from. -/
namespace TypeRecovery

structure NodeId where
  value : Nat
deriving DecidableEq

namespace NodeId

instance : Ord NodeId := ⟨compareOn value⟩

instance : Std.TransOrd NodeId := inferInstanceAs (Std.TransCmp (compareOn value))

instance : Std.LawfulEqOrd NodeId where
  eq_of_compare {a b} same := by
    have equal : a.value = b.value :=
      Std.LawfulEqCmp.eq_of_compare (show compare a.value b.value = .eq from same)
    cases a
    cases b
    exact congrArg NodeId.mk equal

def text (id : NodeId) : String := Text.hex8 id.value

end NodeId

/-- Identifiers from `next` on are unused. -/
structure Supply where
  next : Nat := 1
deriving DecidableEq

def Supply.fresh (supply : Supply) : NodeId × Supply := (⟨supply.next⟩, ⟨supply.next + 1⟩)

abbrev Alloc := StateM Supply

def Alloc.fresh : Alloc NodeId := fun supply => supply.fresh

end TypeRecovery
