import Redex.Ty

/-! # Lambda terms

    Variables, abstractions and applications with names for variables, and their text.
    Annotated and plain terms share one type: an abstraction without an annotation has
    `Ty.missing` in its place. -/

namespace Redex

/-- A lambda term.  `missing` is an unfilled part of a tree under construction. -/
inductive Term where
  | missing
  | var (name : String)
  | abs (binder : String) (ty : Ty) (body : Term)
  | app (fn arg : Term)
deriving DecidableEq, Repr, Inhabited

namespace Term

def isVar : Term → Bool
  | .var _ => true
  | _ => false

def isAbs : Term → Bool
  | .abs _ _ _ => true
  | _ => false

def isApp : Term → Bool
  | .app _ _ => true
  | _ => false

/-- The number of nodes of a term. -/
def size : Term → Nat
  | .missing => 1
  | .var _ => 1
  | .abs _ _ body => body.size + 1
  | .app fn arg => fn.size + arg.size + 1

theorem size_pos (t : Term) : 0 < t.size := by
  cases t <;> simp [size]

/-! ### Text -/

/-- The annotation of a binder, put in front of `rest`: nothing for a missing one. -/
def writeHat (ty : Ty) (rest : List Char) : List Char :=
  if ty = .missing then rest else '^' :: ty.write rest

/-- The text of a term, put in front of `rest`.  The function of an application stands in
    parentheses unless it is a variable; its argument does if it is an application or an
    abstraction. -/
def write : Term → List Char → List Char
  | .missing, rest => rest
  | .var name, rest => name.toList ++ rest
  | .abs binder ty body, rest =>
    'λ' :: (binder.toList ++ writeHat ty ('.' :: body.write rest))
  | .app fn arg, rest =>
    let rest :=
      ' ' :: if arg.isApp || arg.isAbs then '(' :: arg.write (')' :: rest) else arg.write rest
    if fn.isVar then fn.write rest else '(' :: fn.write (')' :: rest)

/-- The text of a term. -/
def render (t : Term) : String :=
  String.ofList (t.write [])

end Term

end Redex
