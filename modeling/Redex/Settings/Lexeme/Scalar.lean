import Redex.Settings.Cursor
import Redex.Text.Numeral

/-! # Scalars

    A scalar is plain, quoted or a block.  Where a plain or quoted scalar goes on in another
    line, the line end is folded: one becomes a space, and of several all but the first are
    kept.  A literal block keeps its line ends; a folded block folds those between lines that
    are not indented. -/

namespace Redex.Settings

/-! ### Gaps -/

/-- The blanks and line ends between two words of a scalar. -/
structure Gap where
  /-- The blanks before the first line end, in reverse. -/
  blanks : List Char := []
  /-- Whether the line ends in the gap.  Blanks are passed over from there on. -/
  broken : Bool := false
  /-- The first line end, unless it is escaped. -/
  first : Option Char := none
  /-- The line ends behind the first one, in reverse. -/
  others : List Char := []
deriving DecidableEq, Repr

namespace Gap

def isEmpty (gap : Gap) : Bool :=
  !gap.broken && gap.blanks.isEmpty

def addBlank (gap : Gap) (c : Char) : Gap :=
  if gap.broken then gap else { gap with blanks := c :: gap.blanks }

def addBreak (gap : Gap) (c : Char) : Gap :=
  if gap.broken then { gap with others := c :: gap.others }
  else { broken := true, first := some c }

/-- What a gap leaves of itself, in reverse. -/
def folded (gap : Gap) : List Char :=
  if gap.broken then
    match gap.first with
    | none => gap.others
    | some c =>
      if c == '\n' then if gap.others.isEmpty then [' '] else gap.others
      else gap.others ++ [c]
  else gap.blanks

end Gap

/-! ### Plain scalars -/

/-- Whether a plain scalar stops before a character: before a comment, a marker or a line
    that is not indented deeply enough, which need a gap before them, before a colon that ends
    a key, and in a flow collection before punctuation. -/
def stopsPlain (inFlow : Bool) (indent : Nat) (gap : Gap) (mark : Mark) (c : Char)
    (text : List Char) : Bool :=
  (!gap.isEmpty && (c == '#' || (!inFlow && mark.column < indent)
      || (mark.column == 0 && startsMarker (c :: text))))
    || (c == ':' && endsWord text)
    || (inFlow && ",?[]\x7b\x7d".toList.contains c)

/-- Reads a plain scalar: its text in reverse behind what is already read, the gap behind it,
    and the place behind the gap. -/
def plainFrom (inFlow : Bool) (indent : Nat) (start : Mark) (read : List Char) (gap : Gap)
    (mark : Mark) : List Char → Except Malformed (List Char × Gap × Cursor)
  | [] => .ok (read, gap, ⟨mark, []⟩)
  | c :: text =>
    if isBlank c then
      if gap.broken && mark.column < indent && c == '\t' then .error (start.fault mark .tabInPlain)
      else plainFrom inFlow indent start read (gap.addBlank c) (mark.right 1) text
    else if isBreak c then plainFrom inFlow indent start read (gap.addBreak c) mark.below text
    else if stopsPlain inFlow indent gap mark c text then .ok (read, gap, ⟨mark, c :: text⟩)
    else plainFrom inFlow indent start (c :: (gap.folded ++ read)) {} (mark.right 1) text

/-- The plain scalar at a place, whether its last line ends behind it, and the place behind
    that. -/
def takePlain (inFlow : Bool) (indent : Nat) (cursor : Cursor) :
    Except Malformed (String × Bool × Cursor) :=
  (plainFrom inFlow indent cursor.mark [] {} cursor.mark cursor.text).map
    fun (read, gap, rest) => (String.ofList read.reverse, gap.broken, rest)

/-! ### Quoted scalars -/

/-- The character that an escape of one letter stands for. -/
def simpleEscape? : Char → Option Char
  | '0' => some (Char.ofNat 0)
  | 'a' => some (Char.ofNat 7)
  | 'b' => some (Char.ofNat 8)
  | 't' => some '\t'
  | '\t' => some '\t'
  | 'n' => some '\n'
  | 'v' => some (Char.ofNat 11)
  | 'f' => some (Char.ofNat 12)
  | 'r' => some '\r'
  | 'e' => some (Char.ofNat 27)
  | ' ' => some ' '
  | '"' => some '"'
  | '\'' => some '\''
  | '\\' => some '\\'
  | 'N' => some (Char.ofNat 0x85)
  | '_' => some (Char.ofNat 0xa0)
  | 'L' => some (Char.ofNat 0x2028)
  | 'P' => some (Char.ofNat 0x2029)
  | _ => none

/-- The number of hexadecimal digits behind an escape for a code point. -/
def codeEscape? : Char → Option Nat
  | 'x' => some 2
  | 'u' => some 4
  | 'U' => some 8
  | _ => none

/-- The value of a hexadecimal digit. -/
def hexDigit? (c : Char) : Option Nat :=
  (Text.digitValue? c).filter (· < 16)

/-- The number that hexadecimal digits spell. -/
def hexNumber? (digits : List Char) : Option Nat :=
  digits.foldl (fun n c => do return (← n) * 16 + (← hexDigit? c)) (some 0)

/-- Reads a quoted scalar behind its opening quote: its text in reverse behind what is already
    read, and the place behind its closing quote. -/
def quotedFrom (single : Bool) (start : Mark) (read : List Char) (gap : Gap) (mark : Mark)
    (text : List Char) : Except Malformed (List Char × Cursor) :=
  match text with
  | [] => .error (start.fault mark .unclosedQuote)
  | c :: text =>
    if isBlank c then quotedFrom single start read (gap.addBlank c) (mark.right 1) text
    else if isBreak c then quotedFrom single start read (gap.addBreak c) mark.below text
    else if mark.column == 0 && startsMarker (c :: text) then
      .error (start.fault mark .markerInQuote)
    else
      let read := gap.folded ++ read
      if single && c == '\'' then
        match text with
        | '\'' :: text => quotedFrom single start ('\'' :: read) {} (mark.right 2) text
        | _ => .ok (read, ⟨mark.right 1, text⟩)
      else if !single && c == '"' then .ok (read, ⟨mark.right 1, text⟩)
      else if !single && c == '\\' then
        match text with
        | [] => .error (start.fault mark .unknownEscape)
        | e :: text =>
          if isBreak e then
            quotedFrom single start read { broken := true } (mark.right 1).below text
          else
            match simpleEscape? e, codeEscape? e with
            | some c, _ => quotedFrom single start (c :: read) {} (mark.right 2) text
            | none, none => .error (start.fault mark .unknownEscape)
            | none, some count =>
              if text.length < count then .error (start.fault (mark.right 2) .missingHexDigit)
              else
                match hexNumber? (text.take count) with
                | none => .error (start.fault (mark.right 2) .missingHexDigit)
                | some code =>
                  if code.isValidChar then
                    quotedFrom single start (Char.ofNat code :: read) {} (mark.right (2 + count))
                      (text.drop count)
                  else .error (start.fault (mark.right 2) .invalidCodePoint)
      else quotedFrom single start (c :: read) {} (mark.right 1) text
termination_by text.length
decreasing_by
  all_goals simp only [List.length_cons, List.length_drop]; omega

/-- The quoted scalar at a place, and the place behind it. -/
def takeQuoted (single : Bool) (cursor : Cursor) : Except Malformed (String × Cursor) :=
  (quotedFrom single cursor.mark [] {} (cursor.mark.right 1) (cursor.text.drop 1)).map
    fun (read, rest) => (String.ofList read.reverse, rest)

/-! ### Block scalars -/

/-- What becomes of the line ends at the end of a block. -/
inductive Chomping where
  /-- One is kept. -/
  | clip
  /-- None is kept. -/
  | strip
  /-- All are kept. -/
  | keep
deriving DecidableEq, Repr

/-- A block scalar as far as it is read. -/
structure Block where
  /-- The indentation of its lines, or 0 if it is not known yet. -/
  indent : Nat
  /-- The widest indentation of the empty lines before the first line. -/
  widest : Nat := 0
  /-- The text so far, in reverse. -/
  read : List Char := []
  /-- The line end behind the last line. -/
  last : Option Char := none
  /-- The line ends of the empty lines behind the last line, in reverse. -/
  empty : List Char := []
  /-- Whether the last line starts with a blank. -/
  indented : Bool := false
deriving DecidableEq, Repr

namespace Block

/-- Starts a line with a character. -/
def addLine (block : Block) (literal : Bool) (indent : Nat) (c : Char) : Block :=
  let folds := !literal && !block.indented && !isBlank c && block.last == some '\n'
  let read :=
    if folds then if block.empty.isEmpty then ' ' :: block.read else block.read
    else block.last.toList ++ block.read
  { block with
    indent
    read := c :: (block.empty ++ read)
    last := none
    empty := []
    indented := isBlank c }

/-- The text of a block that is read whole. -/
def text (block : Block) (chomping : Chomping) : String :=
  let read := match chomping with
    | .strip => block.read
    | .clip => block.last.toList ++ block.read
    | .keep => block.empty ++ block.last.toList ++ block.read
  String.ofList read.reverse

end Block

/-- Reads the lines of a block scalar.  `least` is the least indentation they may have, and
    `inLine` says whether the start of the line is read. -/
def blockFrom (literal : Bool) (least : Nat) (start : Mark) (block : Block) (inLine : Bool)
    (mark : Mark) : List Char → Except Malformed (Block × Cursor)
  | [] => .ok (block, ⟨mark, []⟩)
  | c :: text =>
    if inLine then
      if isBreak c then
        blockFrom literal least start { block with last := some c } false mark.below text
      else
        let read := c :: block.read
        blockFrom literal least start { block with read } true (mark.right 1) text
    else
      let outside := block.indent == 0 || mark.column < block.indent
      if outside && c == ' ' then
        let widest := max block.widest (mark.column + 1)
        blockFrom literal least start { block with widest } false (mark.right 1) text
      else if outside && c == '\t' then .error (start.fault mark .tabInBlock)
      else if isBreak c then
        blockFrom literal least start { block with empty := c :: block.empty } false mark.below text
      else
        let indent := if block.indent == 0 then max block.widest least else block.indent
        if mark.column == indent then
          blockFrom literal least start (block.addLine literal indent c) true (mark.right 1) text
        else .ok (block, ⟨mark, c :: text⟩)

/-- The sign that says what becomes of the last line ends, if there is one. -/
def takeChomping (cursor : Cursor) : Option Chomping × Cursor :=
  match cursor.text with
  | '+' :: _ => (some .keep, cursor.skip 1)
  | '-' :: _ => (some .strip, cursor.skip 1)
  | _ => (none, cursor)

/-- The digit that gives the indentation, or 0 if there is none. -/
def takeIndentation (start : Mark) (cursor : Cursor) : Except Malformed (Nat × Cursor) :=
  match cursor.text with
  | c :: _ =>
    if c == '0' then .error (start.fault cursor.mark .zeroIndentation)
    else if c.isDigit then .ok (c.toNat - '0'.toNat, cursor.skip 1)
    else .ok (0, cursor)
  | [] => .ok (0, cursor)

/-- The block scalar at a place, and the place behind it.  `base` is the indentation of the
    block around it, if any. -/
def takeBlock (literal : Bool) (base : Option Nat) (cursor : Cursor) :
    Except Malformed (String × Cursor) := do
  let start := cursor.mark
  let (early, cursor) := takeChomping (cursor.skip 1)
  let (indentation, cursor) ← takeIndentation start cursor
  let (late, cursor) := if early.isSome then (none, cursor) else takeChomping cursor
  let cursor ← cursor.endLine start
  let indent := if indentation = 0 then 0 else base.getD 0 + indentation
  let least := base.elim 1 (· + 1)
  let (block, cursor) ← blockFrom literal least start { indent } false cursor.mark cursor.text
  return (block.text ((early.or late).getD .clip), cursor)

end Redex.Settings
