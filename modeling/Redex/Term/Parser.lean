import Redex.Term
import Redex.Ty.Parser

/-! # Reading expressions

    An expression is a sequence of items, applied from left to right: variables,
    expressions in parentheses and abstractions.  The body of an abstraction starts with a
    dot and takes all that follows, or it is short and ends with its first variable or group
    outside parentheses.  A dot between items makes one item of all that follows it.  In the
    typed mode a hat and a type stand behind the name of every binder. -/

namespace Redex.Term

open Token

/-- The annotation of a binder, and the tokens behind it.  Only the typed mode has
    annotations. -/
def annotationOf (mode : Mode) : List Token → Except ParseError (Ty × List Token)
  | [] => .error .noAbstractionBody
  | token :: tokens =>
    if mode.isTyped then
      if token.kind = .hat then
        if tokens.isEmpty then .error .noType
        else
          match annotationCut 0 tokens with
          | .error e => .error e
          | .ok (inside, rest) => (Ty.ofTokens inside).map fun ty => (ty, rest)
      else .error .noTypeHat
    else .ok (.missing, token :: tokens)

theorem annotationOf_length {mode : Mode} {tokens rest : List Token} {ty : Ty}
    (h : annotationOf mode tokens = .ok (ty, rest)) : rest.length ≤ tokens.length := by
  unfold annotationOf at h
  split at h
  · simp at h
  · rename_i token tokens
    split at h
    · split at h
      · split at h
        · simp at h
        · split at h
          · simp at h
          · rename_i inside _ hcut
            have hlen := annotationCut_length hcut
            cases hty : Ty.ofTokens inside with
            | error e => simp [hty, Except.map] at h
            | ok _ =>
              simp only [hty, Except.map, Except.ok.injEq, Prod.mk.injEq] at h
              grind
      · simp at h
    · grind

/-- The application of the first item to all others in turn. -/
def applyAll : List Term → Except ParseError Term
  | [] => .error .emptyExpression
  | first :: others => .ok (others.foldl .app first)

-- The named cases are used by the termination proof, which the linter does not see.
set_option linter.unusedVariables false in
/-- The items that a list of tokens spells. -/
def itemsOfTokens (mode : Mode) (tokens : List Token) : Except ParseError (List Term) :=
  match tokens with
  | [] => .ok []
  | token :: rest =>
    match token.kind with
    | .lambda =>
      match ha : annotationOf mode rest with
      | .error e => .error e
      | .ok (ty, rest) =>
        match hb : bodyCut rest with
        | none => .error .noAbstractionBody
        | some (body, rest) =>
          match (itemsOfTokens mode body).bind applyAll with
          | .error e => .error e
          | .ok body => (itemsOfTokens mode rest).map (.abs token.text ty body :: ·)
    | .lower => (itemsOfTokens mode rest).map (.var token.text :: ·)
    | .lparen =>
      match hg : groupCut 0 rest with
      | none => .error .unclosedLParen
      | some (inside, rest) =>
        match (itemsOfTokens mode inside).bind applyAll with
        | .error e => .error e
        | .ok inside => (itemsOfTokens mode rest).map (inside :: ·)
    | .rparen => .error .unexpectedRParen
    | .dot => ((itemsOfTokens mode rest).bind applyAll).map ([·])
    | .upper | .arrow | .hat | .colon | .other => .error .typeOutsideType
termination_by tokens.length
decreasing_by
  -- the body of an abstraction, and what stands behind it
  · have hhat := annotationOf_length ha
    have hbody := bodyCut_length hb
    simp only [List.length_cons]; omega
  · have hhat := annotationOf_length ha
    have hbody := bodyCut_length hb
    simp only [List.length_cons]; omega
  -- behind a variable
  · simp only [List.length_cons]; omega
  -- the inside of a group, and what stands behind it
  · have hgroup := groupCut_length hg
    simp only [List.length_cons]; omega
  · have hgroup := groupCut_length hg
    simp only [List.length_cons]; omega
  -- behind a dot
  · simp only [List.length_cons]; omega

/-- The expression that a list of tokens spells. -/
def ofTokens (mode : Mode) (tokens : List Token) : Except ParseError Term :=
  (itemsOfTokens mode tokens).bind applyAll

end Redex.Term
