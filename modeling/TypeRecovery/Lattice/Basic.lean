import TypeRecovery.Lattice.Ground
import TypeRecovery.Notice
import TypeRecovery.Ordered.Set

/-! The lattice that constraints bottom out in: the fixed atoms, and sealed atoms registered for
types that are not taken apart. A sealed atom lies between the sentinels and is comparable with
nothing else. Variables outside the lattice are compared in the same way. -/
namespace TypeRecovery

structure AtomLattice where
  sealedAtoms : OrdSet TypeVar := ∅
deriving DecidableEq

namespace AtomLattice

def top : TypeVar := Ground.top.toVar

def bottom : TypeVar := Ground.bottom.toVar

/-- Registers sealed atoms; names of fixed atoms are left out. -/
def extend (l : AtomLattice) (atoms : List TypeVar) : AtomLattice :=
  ⟨l.sealedAtoms.insertAll (atoms.filter fun v => v.ground?.isNone)⟩

def extendNotices (atoms : List TypeVar) : List Notice :=
  (atoms.filter fun v => v.ground?.isSome).map .fixedAtom

def innerAtoms : OrdSet TypeVar := OrdSet.ofList (Ground.inner.map Ground.toVar)

def atoms (l : AtomLattice) : OrdSet TypeVar := innerAtoms.union l.sealedAtoms

def contains (l : AtomLattice) (v : TypeVar) : Bool :=
  v.ground?.isSome || v ∈ l.sealedAtoms

def above (l : AtomLattice) (v : TypeVar) : List TypeVar :=
  match v.ground? with
  | some g => g.above.map Ground.toVar ++ if g = .bottom then l.sealedAtoms.toList else []
  | none => [v, top]

def below (l : AtomLattice) (v : TypeVar) : List TypeVar :=
  match v.ground? with
  | some g => g.below.map Ground.toVar ++ if g = .top then l.sealedAtoms.toList else []
  | none => [v, bottom]

def isSubtype (l : AtomLattice) (a b : TypeVar) : Bool :=
  a == b || a == bottom || b == top || b ∈ l.above a

/-- The only candidate that no other candidate lies above, if there is just one. -/
def maximal? (l : AtomLattice) (candidates : List TypeVar) : Option TypeVar :=
  match candidates.filter fun c => candidates.all fun d => d == c || !(l.above c).contains d with
  | [m] => some m
  | _ => none

/-- The only candidate that no other candidate lies below, if there is just one. -/
def minimal? (l : AtomLattice) (candidates : List TypeVar) : Option TypeVar :=
  match candidates.filter fun c => candidates.all fun d => d == c || !(l.below c).contains d with
  | [m] => some m
  | _ => none

def meet (l : AtomLattice) (a b : TypeVar) : TypeVar :=
  if a = b ∨ b = top then a
  else if a = top then b
  else if a = bottom ∨ b = bottom then bottom
  else (l.maximal? ((l.below a).filter fun v => (l.below b).contains v)).getD bottom

def join (l : AtomLattice) (a b : TypeVar) : TypeVar :=
  if a = b ∨ b = bottom then a
  else if a = bottom then b
  else if a = top ∨ b = top then top
  else (l.minimal? ((l.above a).filter fun v => (l.above b).contains v)).getD top

def meetAll (l : AtomLattice) (atoms : List TypeVar) : TypeVar := atoms.foldl l.meet top

def joinAll (l : AtomLattice) (atoms : List TypeVar) : TypeVar := atoms.foldl l.join bottom

end AtomLattice
end TypeRecovery
