import Redex.Term.Alpha

/-! # A supply of fresh names

    A fresh name is a base followed by a number, taken from a counter that only grows.
    Numbers whose name is already in use are passed over. -/

namespace Redex.Reduction

/-- The names in use, and the number to try next. -/
structure Supply where
  /-- The names that may not be handed out. -/
  used : NameSet := ∅
  /-- The number that the next candidate ends with. -/
  next : Nat := 1
deriving Inhabited

namespace Supply

/-- The name made of a base and a number. -/
def candidate (base : String) (number : Nat) : String :=
  base ++ toString number

/-- The first number from `number` on whose candidate is not in use, looked for among
    `tries` numbers.  The number behind them is not tried: with as many tries as there are
    names in use, one of the numbers is free. -/
def firstUnused (used : NameSet) (base : String) (number : Nat) : Nat → Nat
  | 0 => number
  | tries + 1 =>
    if used.contains (candidate base number) then firstUnused used base (number + 1) tries
    else number

/-- Hands out a fresh name for a base. -/
def fresh (supply : Supply) (base : String) : String × Supply :=
  let number := firstUnused supply.used base supply.next supply.used.size
  let name := candidate base number
  (name, { used := supply.used.insert name, next := number + 1 })

/-- Puts all names of a term into use. -/
def reserve (supply : Supply) (t : Term) : Supply :=
  { supply with used := t.addNames supply.used }

/-- The supply for the reduction of a term: its names are in use, and counting starts
    at 1. -/
def ofTerm (t : Term) : Supply :=
  { used := t.names }

end Supply

end Redex.Reduction
