import Redex.Settings.Malformed

/-! # Places in a settings document

    A cursor is a place in a document together with the text from there on.  Lines and
    columns are counted from 0.  All line ends but the line and paragraph separators stand
    in the text as newlines. -/

namespace Redex.Settings

/-- A place in a text. -/
structure Mark where
  index : Nat := 0
  line : Nat := 0
  column : Nat := 0
deriving DecidableEq, Repr

/-- The place `count` characters to the right. -/
def Mark.right (mark : Mark) (count : Nat) : Mark :=
  { mark with index := mark.index + count, column := mark.column + count }

/-- The start of the next line, behind a line end. -/
def Mark.below (mark : Mark) : Mark :=
  ⟨mark.index + 1, mark.line + 1, 0⟩

/-- A problem of the text met at a place while reading what starts at another one.  The start
    is reported, unless it is on the first line. -/
def Mark.fault (start here : Mark) (problem : Problem) : Malformed :=
  let line := if start.line = 0 then here.line else start.line
  ⟨if line = 0 then 0 else line + 1, problem⟩

/-! ### Characters -/

/-- Spaces and tabs. -/
def isBlank (c : Char) : Bool :=
  c == ' ' || c == '\t'

/-- Line ends: newlines, line separators and paragraph separators. -/
def isBreak (c : Char) : Bool :=
  c == '\n' || c == Char.ofNat 0x2028 || c == Char.ofNat 0x2029

/-- The characters of names. -/
def isNameChar (c : Char) : Bool :=
  c.isAlphanum || c == '_' || c == '-'

/-- Whether a text is empty or starts with a blank or a line end. -/
def endsWord : List Char → Bool
  | [] => true
  | c :: _ => isBlank c || isBreak c

/-- Whether a text is empty or starts with a line end. -/
def endsLine : List Char → Bool
  | [] => true
  | c :: _ => isBreak c

/-- Whether a text starts with the marker before or behind a document. -/
def startsMarker : List Char → Bool
  | '-' :: '-' :: '-' :: text => endsWord text
  | '.' :: '.' :: '.' :: text => endsWord text
  | _ => false

/-! ### Cursors -/

/-- A place, and the text from there on. -/
structure Cursor where
  mark : Mark
  text : List Char
deriving DecidableEq, Repr

namespace Cursor

/-- Passes over `count` characters, none of them a line end. -/
def skip (cursor : Cursor) (count : Nat) : Cursor :=
  ⟨cursor.mark.right count, cursor.text.drop count⟩

/-- The longest run of characters with a property, which no line end has, and the place behind
    it. -/
def span (cursor : Cursor) (holds : Char → Bool) : List Char × Cursor :=
  let run := cursor.text.takeWhile holds
  (run, cursor.skip run.length)

/-- Passes over blanks. -/
def skipBlanks (cursor : Cursor) : Cursor :=
  (cursor.span isBlank).2

/-- Passes over the rest of a line. -/
def skipLine (cursor : Cursor) : Cursor :=
  (cursor.span (!isBreak ·)).2

/-- Passes over a line end, if one is here. -/
def skipBreak (cursor : Cursor) : Cursor :=
  match cursor.text with
  | [] => cursor
  | c :: text => if isBreak c then ⟨cursor.mark.below, text⟩ else cursor

/-- Passes over what may stand at the end of a line: blanks, a comment and the line end. -/
def endLine (cursor : Cursor) (start : Mark) : Except Malformed Cursor :=
  let cursor := cursor.skipBlanks
  let cursor := if cursor.text.head? == some '#' then cursor.skipLine else cursor
  if endsLine cursor.text then .ok cursor.skipBreak
  else .error (start.fault cursor.mark .overfullLine)

end Cursor

/-! ### Texts -/

/-- Whether a character may stand in a document. -/
def isAllowed (c : Char) : Bool :=
  c == '\t' || c == '\n' || c == '\r' || (' ' ≤ c && c ≤ '~') || c.toNat == 0x85
    || (0xa0 ≤ c.toNat && c.toNat != 0xfffe && c.toNat != 0xffff)

/-- A text with each line end as one character. -/
def unifyBreaks : List Char → List Char
  | [] => []
  | '\r' :: '\n' :: text => '\n' :: unifyBreaks text
  | c :: text =>
    (if c == '\r' || c == Char.ofNat 0x85 then '\n' else c) :: unifyBreaks text

/-- The number of bytes that are read at once. -/
def windowSize : Nat := 512

/-- The characters of a text before the window that holds the first one which may not stand
    there, behind `bytes` bytes already read; and whether there is such a window. -/
def readable (bytes : Nat) (window : List Char) : List Char → List Char × Bool
  | [] => (window.reverse, false)
  | c :: text =>
    if isAllowed c then
      let bytes := bytes + c.utf8Size
      if bytes < windowSize then readable bytes (c :: window) text
      else
        let (later, broken) := readable (bytes - windowSize) [] text
        (window.reverse ++ c :: later, broken)
    else ([], true)

/-- The start of a document without its byte order mark.  Of a text that is broken off by a
    window that cannot be read, only the part before is left. -/
def Cursor.ofString (text : String) : Except Malformed (Cursor × Bool) :=
  let (bytes, chars) := match text.toList with
    | c :: chars => if c == Char.ofNat 0xfeff then (c.utf8Size, chars) else (0, c :: chars)
    | [] => (0, [])
  match readable bytes [] chars with
  | ([], true) => .error ⟨0, .controlCharacter⟩
  | (chars, broken) => .ok (⟨{}, unifyBreaks chars⟩, broken)

end Redex.Settings
