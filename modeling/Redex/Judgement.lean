import Redex.Term.Alpha
import Redex.Term.Parser

/-! # Judgements

    A judgement `(e) : T` declares a type for a closed expression.  It is read as an expression
    and a type with the only colon between them.

    A judgement passes the naming check if its expression is closed and every base type of its
    declared type is mentioned by some annotation of the expression.  Types are not compared
    beyond their names. -/

namespace Redex

/-- An expression together with its declared type. -/
structure Judgement where
  term : Term
  ty : Ty
deriving DecidableEq, Repr

/-- The text of a judgement, put in front of `rest`. -/
def Judgement.write (j : Judgement) (rest : List Char) : List Char :=
  '(' :: j.term.write (')' :: ' ' :: ':' :: ' ' :: j.ty.write rest)

/-- The text of a judgement. -/
def Judgement.render (j : Judgement) : String :=
  String.ofList (j.write [])

/-- The judgement that a list of tokens spells. -/
def Judgement.ofTokens (mode : Mode) (tokens : List Token) : Except ParseError Judgement :=
  let isColon (token : Token) : Bool := token.kind == .colon
  let left := tokens.takeWhile (!isColon ·)
  let right := (tokens.dropWhile (!isColon ·)).drop 1
  if tokens.isEmpty then .error .emptyJudgement
  else if tokens.length < 3 then .error .judgementTooShort
  else if !tokens.any isColon then .error .noType
  else if right.any isColon then .error .tooManyColons
  else if left.isEmpty then .error .emptyExpression
  else if right.isEmpty then .error .noType
  else
    match Term.ofTokens mode left with
    | .error e => .error e
    | .ok term => (Ty.ofTokens right).map fun ty => ⟨term, ty⟩

/-! ### The naming check -/

/-- Why a judgement fails the naming check. -/
inductive NamingError where
  /-- The free variables of the expression, in increasing order. -/
  | unknownType (names : List String)
  /-- The leftmost base type of the declared type that no annotation mentions. -/
  | mismatchedTypes (names : List String)
deriving DecidableEq, Repr

namespace NamingError

/-- The name of an error in reports. -/
def name : NamingError → String
  | .unknownType _ => "UnknownType"
  | .mismatchedTypes _ => "MismatchedTypes"

/-- The names that an error is about. -/
def names : NamingError → List String
  | .unknownType names => names
  | .mismatchedTypes names => names

/-- The report of an error. -/
def message : NamingError → String
  | .unknownType names => "Unknown type: " ++ ", ".intercalate names
  | .mismatchedTypes names => "Mismatched types, unknown type: " ++ ", ".intercalate names

end NamingError

/-- The leftmost base type of a type that is not among the known ones. -/
def Ty.firstUnknown (known : NameSet) : Ty → Option String
  | .missing => none
  | .base name => if known.contains name then none else some name
  | .arrow source target => (source.firstUnknown known).or (target.firstUnknown known)

/-- Checks the names of a judgement. -/
def Judgement.check (j : Judgement) : Except NamingError Unit :=
  if j.term.free.isEmpty then
    match j.ty.firstUnknown j.term.annotationNames with
    | none => .ok ()
    | some name => .error (.mismatchedTypes [name])
  else .error (.unknownType j.term.free.toList)

end Redex
