/-! # Modes

    A line holds a plain expression in the untyped mode and a judgement, with an annotation
    on every abstraction, in the typed mode. -/

namespace Redex

/-- The mode a line is read in.  A setting may also hold a number that stands for neither
    mode; reading then treats it as untyped, and only the validation of settings
    objects. -/
inductive Mode where
  | untyped
  | typed
  | unknown (code : Int)
deriving DecidableEq, Repr

namespace Mode

/-- The mode with a given number: 0 is untyped, 1 is typed. -/
def ofCode (code : Int) : Mode :=
  if code = 0 then .untyped else if code = 1 then .typed else .unknown code

def isTyped : Mode → Bool
  | .typed => true
  | _ => false

/-- The name of a mode; all but the typed one go by the name of the untyped. -/
def name (mode : Mode) : String :=
  if mode.isTyped then "typed" else "untyped"

/-- What a line is read as. -/
def construct (mode : Mode) : String :=
  if mode.isTyped then "judgement" else "expression"

end Mode

end Redex
