import Redex.Mode
import Redex.Token

/-! # How far a phrase reaches

    Before a part of a phrase is read, its tokens are cut off from those that follow it.
    Each cut returns the tokens of the part and the rest, and loses none. -/

namespace Redex

/-- What may be wrong with a list of tokens. -/
inductive ParseError where
  | emptyExpression
  | invalidExpression
  | unexpectedRParen
  | unclosedLParen
  | noAbstractionBody
  | noTypeHat
  | invalidType
  | arrowBeforeType
  | noType
  | typeOutsideType
  | tooManyColons
  | judgementTooShort
  | emptyJudgement
  | expressionOutsideExpression
deriving DecidableEq, Repr

/-- The report of a fault. -/
def ParseError.message : ParseError → String
  | .emptyExpression => "Empty expression"
  | .invalidExpression => "Invalid expression"
  | .unexpectedRParen => "Unexpected right parenthesis"
  | .unclosedLParen => "Unclosed left parenthesis"
  | .noAbstractionBody => "Missing abstraction body"
  | .noTypeHat => "Missing type hat"
  | .invalidType => "Invalid type"
  | .arrowBeforeType => "Arrow before type"
  | .noType => "Missing type"
  | .typeOutsideType => "Type syntax outside type found"
  | .tooManyColons => "Too many colons"
  | .judgementTooShort => "Judgement too short. Should be at least 3 tokens long"
  | .emptyJudgement => "Empty judgement"
  | .expressionOutsideExpression => "Expression syntax outside expression"

namespace Token

/-- Puts a token in front of the first part of a cut. -/
def consFirst (token : Token) (cut : List Token × List Token) : List Token × List Token :=
  (token :: cut.1, cut.2)

/-! ### Groups -/

/-- The tokens up to the right parenthesis that closes a group, and those behind it.  The
    left parenthesis has been passed, and `depth` further ones inside the group are still
    open.  There is no cut if the group is never closed. -/
def groupCut : Nat → List Token → Option (List Token × List Token)
  | _, [] => none
  | depth, token :: tokens =>
    match token.kind, depth with
    | .rparen, 0 => some ([], tokens)
    | .rparen, depth + 1 => (groupCut depth tokens).map (consFirst token)
    | .lparen, depth => (groupCut (depth + 1) tokens).map (consFirst token)
    | _, depth => (groupCut depth tokens).map (consFirst token)

theorem groupCut_length {depth : Nat} {tokens inside rest : List Token}
    (h : groupCut depth tokens = some (inside, rest)) :
    inside.length + rest.length + 1 = tokens.length := by
  fun_induction groupCut depth tokens generalizing inside rest <;>
    simp_all [consFirst] <;> grind

/-! ### Bodies -/

/-- The tokens of a body without a dot, and those behind it: the body ends with the first
    variable outside parentheses, or with the first right parenthesis that brings the count
    of open parentheses back to zero.  The count goes below zero where a right parenthesis
    has no partner. -/
def shortBodyCut : Int → List Token → Option (List Token × List Token)
  | _, [] => none
  | depth, token :: tokens =>
    match token.kind with
    | .lparen => (shortBodyCut (depth + 1) tokens).map (consFirst token)
    | .rparen =>
      if depth = 1 then some ([token], tokens)
      else (shortBodyCut (depth - 1) tokens).map (consFirst token)
    | .lower =>
      if depth = 0 then some ([token], tokens)
      else (shortBodyCut depth tokens).map (consFirst token)
    | _ => (shortBodyCut depth tokens).map (consFirst token)

theorem shortBodyCut_length {depth : Int} {tokens body rest : List Token}
    (h : shortBodyCut depth tokens = some (body, rest)) :
    body.length + rest.length = tokens.length ∧ 0 < body.length := by
  fun_induction shortBodyCut depth tokens generalizing body rest <;>
    simp_all [consFirst] <;> grind

/-- The tokens of the body of an abstraction, and those behind it.  A body that starts with
    a dot takes all tokens. -/
def bodyCut (tokens : List Token) : Option (List Token × List Token) :=
  match tokens with
  | ⟨.dot, _⟩ :: _ => some (tokens, [])
  | _ => shortBodyCut 0 tokens

theorem bodyCut_length {tokens body rest : List Token}
    (h : bodyCut tokens = some (body, rest)) :
    body.length + rest.length = tokens.length ∧ 0 < body.length := by
  unfold bodyCut at h
  split at h
  · grind
  · exact shortBodyCut_length h

/-! ### Annotations -/

/-- The count of open parentheses behind a token. -/
def depthBehind (depth : Int) (token : Token) : Int :=
  match token.kind with
  | .lparen => depth + 1
  | .rparen => depth - 1
  | _ => depth

/-- The tokens of a type behind a hat, and those behind it: a single token, or all up to the
    parenthesis that brings the count of open parentheses back to zero.  An arrow outside
    parentheses is refused. -/
def annotationCut : Int → List Token → Except ParseError (List Token × List Token)
  | _, [] => .error .unclosedLParen
  | depth, token :: tokens =>
    if token.kind = .arrow ∧ depth = 0 then .error .invalidType
    else if depthBehind depth token = 0 then .ok ([token], tokens)
    else (annotationCut (depthBehind depth token) tokens).map (consFirst token)

theorem annotationCut_length {depth : Int} {tokens ty rest : List Token}
    (h : annotationCut depth tokens = .ok (ty, rest)) :
    ty.length + rest.length = tokens.length ∧ 0 < ty.length := by
  induction tokens generalizing depth ty rest with
  | nil => simp [annotationCut] at h
  | cons token tokens ih =>
    unfold annotationCut at h
    split at h
    · simp at h
    · split at h
      · grind
      · cases hcut : annotationCut (depthBehind depth token) tokens with
        | error e => simp [hcut, Except.map] at h
        | ok cut =>
          have hlen := ih hcut
          simp only [hcut, Except.map, consFirst] at h
          grind

end Token

end Redex
