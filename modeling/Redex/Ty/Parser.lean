import Redex.Token.Extent
import Redex.Ty

/-! # Reading types

    A type is a sequence of operands with arrows in between, each operand a base type or a
    type in parentheses.  Arrows associate to the right: `A -> B -> C` is
    `A -> (B -> C)`. -/

namespace Redex.Ty

open Token

-- The named cases are used by the termination proof, which the linter does not see.
set_option linter.unusedVariables false in
mutual

/-- The type that a list of tokens spells, where an operand is due.  `first` says that no
    operand has been read before. -/
def ofTokensFrom (first : Bool) (tokens : List Token) : Except ParseError Ty :=
  match tokens with
  | [] => .error (if first then .noType else .invalidType)
  | token :: rest =>
    match token.kind with
    | .upper => ofOperand (.base token.text) rest
    | .lparen =>
      match h : groupCut 0 rest with
      | none => .error .unclosedLParen
      | some (inside, behind) =>
        match ofTokensFrom true inside with
        | .error e => .error e
        | .ok operand => ofOperand operand behind
    | .arrow => .error (if first then .arrowBeforeType else .invalidType)
    | .rparen => .error .unexpectedRParen
    | .lambda | .lower | .hat | .colon | .dot | .other => .error .expressionOutsideExpression
termination_by tokens.length
decreasing_by
  -- behind a base type
  · simp only [List.length_cons]; omega
  -- inside a group
  · have hcut := groupCut_length h
    simp only [List.length_cons]; omega
  -- behind a group
  · have hcut := groupCut_length h
    simp only [List.length_cons]; omega

/-- The type whose first operand has been read, from the tokens behind that operand. -/
def ofOperand (operand : Ty) (tokens : List Token) : Except ParseError Ty :=
  match tokens with
  | [] => .ok operand
  | token :: rest =>
    match token.kind with
    | .arrow => (ofTokensFrom false rest).map (.arrow operand)
    | .upper | .lparen => .error .invalidType
    | .rparen => .error .unexpectedRParen
    | .lambda | .lower | .hat | .colon | .dot | .other => .error .expressionOutsideExpression
termination_by tokens.length
decreasing_by
  simp only [List.length_cons]; omega

end

/-- The type that a list of tokens spells. -/
def ofTokens (tokens : List Token) : Except ParseError Ty :=
  ofTokensFrom true tokens

end Redex.Ty
