import Std.Data.TreeSet

/-! # Simple types

    Base types and function types.  A function type is written in parentheses,
    `(A -> B)`.  Base types go by their names. -/

namespace Redex

/-- A finite set of names, listed in the order of their code points. -/
abbrev NameSet := Std.TreeSet String

/-- A simple type.  `missing` is the type that is not there: the annotation of an abstraction
    without one, or an unfilled part of a function type. -/
inductive Ty where
  | missing
  | base (name : String)
  | arrow (source target : Ty)
deriving DecidableEq, Repr, Inhabited

namespace Ty

/-- The text of a type, put in front of `rest`. -/
def write : Ty → List Char → List Char
  | .missing, rest => rest
  | .base name, rest => name.toList ++ rest
  | .arrow source target, rest =>
    '(' :: source.write (' ' :: '-' :: '>' :: ' ' :: target.write (')' :: rest))

/-- The text of a type. -/
def render (ty : Ty) : String :=
  String.ofList (ty.write [])

/-- Adds the base types of a type to a set of names. -/
def addNames (names : NameSet) : Ty → NameSet
  | .missing => names
  | .base name => names.insert name
  | .arrow source target => target.addNames (source.addNames names)

end Ty

end Redex
