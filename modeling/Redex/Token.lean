/-! # Tokens

    The lexical units of expressions, types and judgements.  A token is a kind together
    with a text: the name for binders and variables, empty for punctuation. -/

namespace Redex

/-- The kinds of tokens.  `other` stands for a unit that belongs to no phrase; every
    parser refuses it. -/
inductive Token.Kind where
  /-- A lambda marker together with the name that it binds. -/
  | lambda
  | lparen
  | rparen
  /-- A name that starts with an ASCII lower-case letter: a variable. -/
  | lower
  /-- A name that starts with an ASCII upper-case letter: a base type. -/
  | upper
  | arrow
  | hat
  | colon
  | dot
  | other
deriving DecidableEq, Repr

/-- A lexical unit. -/
structure Token where
  kind : Token.Kind
  text : String := ""
deriving DecidableEq, Repr

namespace Token

/-- The name of a kind in listings. -/
def Kind.name : Kind → String
  | .lambda => "Lambda"
  | .lparen => "LParen"
  | .rparen => "RParen"
  | .lower => "LowerVar"
  | .upper => "UpperVar"
  | .arrow => "Arrow"
  | .hat => "Hat"
  | .colon => "Colon"
  | .dot => "Dot"
  | .other => "Unknown"

/-- A token in a listing: its kind, and its text in parentheses unless that is empty. -/
def describe (token : Token) : String :=
  if token.text.isEmpty then token.kind.name
  else token.kind.name ++ "(" ++ token.text ++ ")"

/-- A listing of tokens: in brackets, a space between neighbours. -/
def describeAll (tokens : List Token) : String :=
  "[" ++ " ".intercalate (tokens.map describe) ++ "]"

end Token

end Redex
