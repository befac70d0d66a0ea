import Redex.Text.Class
import Redex.Token

/-! # Scanning text into tokens

    `Token.scan` reads a line of text from left to right.

    * **Binders**: a lambda marker (`\` or `λ`) with the name behind it is one token.  White
      space may stand between the two; the name starts with an ASCII lower-case letter and
      goes on with letters and decimal digits up to white space or one of `. ( ^ \ λ`.
    * **Names**: an ASCII letter and all letters and decimal digits behind it.  Here `λ` is
      a letter like any other.
    * **Dots**: a dot needs something behind it, and not a colon; the white space in
      between belongs to the dot.
    * White space and control characters between tokens are skipped.

    Positions count characters from 1. -/

namespace Redex

/-- What may be wrong with a line of text. -/
inductive LexError.Cause where
  /-- A lambda marker is followed by a delimiter where its name should be. -/
  | emptyVariableName
  /-- The character starts no token. -/
  | invalidCharacter (char : Char)
  /-- The name of a binder starts with a letter or digit that is not ASCII lower case. -/
  | invalidVariableName
  /-- The character can neither continue nor end the name of a binder. -/
  | invalidBinderCharacter (char : Char)
  /-- The text ends before the name of a binder. -/
  | emptyBinder
  /-- A dash is not followed by `>`. -/
  | invalidArrow
  /-- Nothing, or a colon, follows a dot. -/
  | trailingDot
deriving DecidableEq, Repr

/-- A fault in a line of text, at a character counted from 1. -/
structure LexError where
  cause : LexError.Cause
  pos : Nat
deriving DecidableEq, Repr

namespace LexError

/-- The name of a cause in reports. -/
def Cause.name : Cause → String
  | .emptyVariableName => "EmptyVariableName"
  | .invalidCharacter _ => "InvalidCharacter"
  | .invalidVariableName => "InvalidVariableName"
  | .invalidBinderCharacter _ => "InvalidLambdaVariableChar"
  | .emptyBinder => "EmptyLambdaVariable"
  | .invalidArrow => "InvalidArrow"
  | .trailingDot => "TrailingDot"

/-- The character that a cause names, if it names one. -/
def Cause.char? : Cause → Option Char
  | .invalidCharacter c => some c
  | .invalidBinderCharacter c => some c
  | _ => none

/-- The wording of a cause found at a position. -/
def Cause.messageAt (cause : Cause) (pos : Int) : String :=
  let what := match cause with
    | .emptyVariableName => "Empty variable name"
    | .invalidCharacter c => "Invalid character: '" ++ c.toString ++ "'"
    | .invalidVariableName => "Invalid variable name"
    | .invalidBinderCharacter c => "Invalid lambda variable character: '" ++ c.toString ++ "'"
    | .emptyBinder => "Empty lambda variable"
    | .invalidArrow => "Invalid type arrow"
    | .trailingDot => "Trailing dot"
  what ++ " at pos: " ++ toString pos

/-- The report of a fault. -/
def message (error : LexError) : String :=
  error.cause.messageAt error.pos

end LexError

namespace Token

open Text

/-! ### Character classes of the scanner -/

/-- The two spellings of a lambda marker. -/
def isMarker (c : Char) : Bool :=
  c == '\\' || c == 'λ'

/-- The delimiters that end the name of a binder. -/
def endsBinder (c : Char) : Bool :=
  c == '.' || c == '(' || c == '^' || isMarker c

/-- What the name of a binder may go on with. -/
def continuesBinder (c : Char) : Bool :=
  isAlphanumeric c && !isMarker c

/-! ### The name of a binder -/

/-- The name of a binder whose marker stands at `marker`, read from the text at `pos`, where
    the white space behind the marker has been passed.  Returns the name and the text
    behind it. -/
def binderName (marker pos : Nat) : List Char → Except LexError (List Char × List Char)
  | [] => .error ⟨.emptyBinder, marker⟩
  | c :: text =>
    if endsBinder c then .error ⟨.emptyVariableName, pos⟩
    else if c.isLower then
      let name := c :: text.takeWhile continuesBinder
      match text.dropWhile continuesBinder with
      | [] => .ok (name, [])
      | d :: rest =>
        if endsBinder d || isBlank d then .ok (name, d :: rest)
        else .error ⟨.invalidBinderCharacter d, pos + name.length⟩
    else if isAlphanumeric c then .error ⟨.invalidVariableName, pos⟩
    else .error ⟨.invalidBinderCharacter c, pos⟩

/-- Nothing is lost in reading a name. -/
theorem binderName_append {marker pos : Nat} {text name rest : List Char}
    (h : binderName marker pos text = .ok (name, rest)) : name ++ rest = text := by
  unfold binderName at h
  split at h
  · simp at h
  · rename_i c text
    have hsplit := List.takeWhile_append_dropWhile (p := continuesBinder) (l := text)
    grind

/-! ### The scanner -/

/-- The tokens of a text whose first character stands at `pos`. -/
def scanFrom (pos : Nat) (text : List Char) : Except LexError (List Token) :=
  match text with
  | [] => .ok []
  | c :: text =>
    if isMarker c then
      let gap := text.takeWhile isBlank
      match h : binderName pos (pos + 1 + gap.length) (text.dropWhile isBlank) with
      | .error e => .error e
      | .ok (name, rest) =>
        (scanFrom (pos + 1 + gap.length + name.length) rest).map
          (⟨.lambda, String.ofList name⟩ :: ·)
    else if c == '(' then (scanFrom (pos + 1) text).map (⟨.lparen, ""⟩ :: ·)
    else if c == ')' then (scanFrom (pos + 1) text).map (⟨.rparen, ""⟩ :: ·)
    else if c == '^' then (scanFrom (pos + 1) text).map (⟨.hat, ""⟩ :: ·)
    else if c == ':' then (scanFrom (pos + 1) text).map (⟨.colon, ""⟩ :: ·)
    else if c == '-' then
      match text with
      | '>' :: rest => (scanFrom (pos + 2) rest).map (⟨.arrow, ""⟩ :: ·)
      | _ => .error ⟨.invalidArrow, pos⟩
    else if c == '.' then
      match h : text.dropWhile isBlank with
      | [] => .error ⟨.trailingDot, pos⟩
      | d :: rest =>
        if d == ':' then .error ⟨.trailingDot, pos⟩
        else
          (scanFrom (pos + 1 + (text.takeWhile isBlank).length) (d :: rest)).map
            (⟨.dot, ""⟩ :: ·)
    else if c.isAlpha then
      let name := c :: text.takeWhile isAlphanumeric
      (scanFrom (pos + name.length) (text.dropWhile isAlphanumeric)).map
        (⟨if c.isLower then .lower else .upper, String.ofList name⟩ :: ·)
    else if isBlank c || isControl c then scanFrom (pos + 1) text
    else .error ⟨.invalidCharacter c, pos⟩
termination_by text.length
decreasing_by
  -- behind a binder: the name and the white space before it are gone, and so is the marker
  · have hname := congrArg List.length (binderName_append h)
    have hgap := (List.dropWhile_suffix isBlank (l := text)).length_le
    simp only [List.length_append, List.length_cons] at *
    omega
  all_goals try (simp only [List.length_cons]; omega)
  -- behind a dot: white space is gone, and so is the dot
  · have hgap := (List.dropWhile_suffix isBlank (l := text)).length_le
    simp only [h, List.length_cons] at *
    omega
  -- behind a name
  · have hrest := (List.dropWhile_suffix isAlphanumeric (l := text)).length_le
    simp only [List.length_cons]
    omega

/-- The tokens of a line of text. -/
def scan (text : String) : Except LexError (List Token) :=
  scanFrom 1 text.toList

end Token

end Redex
