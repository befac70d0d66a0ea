import Redex.Pipeline
import Redex.Text.Utf8

/-! # Numbered codes

    Tokens, errors and conversions also go by numbers.  A number that stands for nothing is
    described as unknown. -/

namespace Redex.Code

open Reduction

/-- The element of a list at a number, if there is one. -/
def lookup? {α : Type} (table : List α) (code : Int) : Option α :=
  if code < 0 then none else table[code.toNat]?

/-- The character with a code point, or the replacement character. -/
def char (code : Int) : Char :=
  if 0 ≤ code ∧ code.toNat.isValidChar then Char.ofNat code.toNat else Text.replacement

/-! ### Tokens -/

/-- The kind of token with a number. -/
def tokenKind (code : Int) : Token.Kind :=
  (lookup? [.lambda, .lparen, .rparen, .lower, .upper, .arrow, .hat, .colon, .dot] code).getD .other

/-! ### Errors -/

/-- The cause of a lexical error with a number, about a character. -/
def lexCause? (code : Int) (c : Char) : Option LexError.Cause :=
  lookup? [.emptyVariableName, .invalidCharacter c, .invalidVariableName,
    .invalidBinderCharacter c, .emptyBinder, .invalidArrow, .trailingDot] code

def lexCauseName (code : Int) : String :=
  ((lexCause? code Text.replacement).map (·.name)).getD "Unknown"

def lexErrorMessage (code charCode pos : Int) : String :=
  ((lexCause? code (char charCode)).map (·.messageAt pos)).getD
    ("lex error at pos: " ++ toString pos)

/-- The errors of reading tokens, in the order of their numbers. -/
def parseErrors : List ParseError :=
  [.emptyExpression, .invalidExpression, .unexpectedRParen, .unclosedLParen, .noAbstractionBody,
    .noTypeHat, .invalidType, .arrowBeforeType, .noType, .typeOutsideType, .tooManyColons,
    .judgementTooShort, .emptyJudgement, .expressionOutsideExpression]

/-- The number of an error of reading tokens. -/
def ofParseError (error : ParseError) : Nat :=
  parseErrors.idxOf error

def parseErrorMessage (code : Int) : String :=
  ((lookup? parseErrors code).map (·.message)).getD "Unknown parse error"

def reduceErrorName (code : Int) : String :=
  ((lookup? [ReduceError.outOfBounds 0, .notAnAbstraction 0] code).map (·.name)).getD "Unknown"

def reduceErrorMessage (code limit : Int) : String :=
  (lookup? [ReduceError.outOfBoundsMessage limit, (ReduceError.notAnAbstraction 0).message]
    code).getD "reduction failed"

def namingErrorName (code : Int) : String :=
  ((lookup? [NamingError.unknownType [], .mismatchedTypes []] code).map (·.name)).getD "Unknown"

def namingErrorMessage (code : Int) (names : List String) : String :=
  ((lookup? [NamingError.unknownType names, .mismatchedTypes names] code).getD
    (.unknownType names)).message

/-! ### Conversions -/

/-- The name of the conversion with a number; 0 stands for none. -/
def ruleName (code : Int) : String :=
  (lookup? ["unknown", "beta", "alpha"] code).getD "unknown"

/-- The line of a trace for a conversion with a number. -/
def eventText (code step : Int) (name fresh : String) : String :=
  match code with
  | 1 => (Rule.beta name).describeAt step
  | 2 => (Rule.alpha name fresh).describeAt step
  | _ => "#" ++ toString step ++ " unknown " ++ name

end Redex.Code
