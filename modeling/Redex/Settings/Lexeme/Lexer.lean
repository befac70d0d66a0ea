import Redex.Settings.Lexeme.Property

/-! # The lexemes of a text

    Blocks start and end by indentation.  The key of a mapping has no sign before it: it is
    known by the colon behind it.  So wherever a key may start, its place is kept as a
    candidate, and when the colon comes, the lexeme for a key, and for a new mapping if there
    is one, is put in at that place.  A candidate is given up at the end of its line; if
    nothing but a key may stand there, that is a problem.

    A document is read only as far as needed.  `Lexeme.scan` gives the lexemes that can be
    read before the first problem of the text behind them, of which two are always read
    ahead. -/

namespace Redex.Settings

/-! ### Between lexemes -/

/-- Passes over blanks, comments and line ends, and says whether a key may start behind
    them.  Tabs are passed over where no key may start, and before a comment that follows
    another one. -/
def passFrom (inFlow inComment commented keyAllowed : Bool) (mark : Mark) :
    List Char → Bool × Cursor
  | [] => (keyAllowed, ⟨mark, []⟩)
  | c :: text =>
    if isBreak c then passFrom inFlow false commented (keyAllowed || !inFlow) mark.below text
    else if inComment then passFrom inFlow true commented keyAllowed (mark.right 1) text
    else if c == '#' then passFrom inFlow true true keyAllowed (mark.right 1) text
    else
      let leads := (text.dropWhile fun d => isBlank d || isBreak d).head? == some '#'
      let tabAllowed := inFlow || !keyAllowed || (commented && leads)
      let orderMark := c == Char.ofNat 0xfeff && mark.column == 0
      if c == ' ' || (c == '\t' && tabAllowed) || orderMark then
        passFrom inFlow false commented keyAllowed (mark.right 1) text
      else (keyAllowed, ⟨mark, c :: text⟩)

/-! ### States -/

/-- A place where a key may start. -/
structure Candidate where
  /-- The number of the lexeme that starts there. -/
  number : Nat
  mark : Mark
  /-- Whether it is not given up yet. -/
  possible : Bool := false
  /-- Whether nothing but a key may stand there. -/
  required : Bool := false
  /-- Whether reading waits there until it is known whether there is a key. -/
  awaited : Bool := true
deriving DecidableEq, Repr

/-- Lexemes as far as they are found, and what decides about those behind them. -/
structure Lexer where
  cursor : Cursor
  /-- Whether the text is broken off by something that cannot be read. -/
  broken : Bool := false
  lexemes : Array Lexeme := #[]
  /-- The columns of the open blocks, the innermost first. -/
  columns : List Nat := []
  /-- The candidate of the innermost open flow collection. -/
  candidate : Candidate := { number := 0, mark := {} }
  /-- The candidates of the collections around it, the innermost first. -/
  outer : List Candidate := []
  /-- Whether a key may start here. -/
  keyAllowed : Bool := true
deriving Repr

namespace Lexer

def inFlow (lexer : Lexer) : Bool :=
  !lexer.outer.isEmpty

/-- Adds a lexeme that starts here and reaches up to another place. -/
def emit (lexer : Lexer) (kind : LexemeKind) (rest : Cursor) : Lexer :=
  { lexer with lexemes := lexer.lexemes.push ⟨lexer.cursor.mark.line, kind⟩, cursor := rest }

/-! ### Candidates -/

/-- Whether a candidate is too far behind to be a key: on another line, or over 1024
    characters before. -/
def isStale (lexer : Lexer) (candidate : Candidate) : Bool :=
  candidate.mark.line < lexer.cursor.mark.line
    || candidate.mark.index + 1024 < lexer.cursor.mark.index

/-- The problem of a place where a key is required and there is none. -/
def keyFault (lexer : Lexer) (candidate : Candidate) : Malformed :=
  candidate.mark.fault lexer.cursor.mark .keyWithoutColon

/-- Gives up the candidate. -/
def dropCandidate (lexer : Lexer) : Except Malformed Lexer :=
  if lexer.candidate.possible && lexer.candidate.required then
    .error (lexer.keyFault lexer.candidate)
  else .ok { lexer with candidate := { lexer.candidate with possible := false } }

/-- Makes this place the candidate, if a key may start here. -/
def saveCandidate (lexer : Lexer) : Except Malformed Lexer := do
  if lexer.keyAllowed then
    let mark := lexer.cursor.mark
    let required := !lexer.inFlow && lexer.columns.head? == some mark.column
    let lexer ← lexer.dropCandidate
    return { lexer with
      candidate := { number := lexer.lexemes.size, mark, possible := true, required } }
  else return lexer

/-- The number of the lexeme that reading has come to: with two lexemes read ahead, unless it
    waits at a candidate. -/
def reached (lexer : Lexer) : Nat :=
  let waiting := (lexer.candidate :: lexer.outer).filter fun candidate =>
    candidate.possible && candidate.awaited && !lexer.isStale candidate
  waiting.foldl (fun n candidate => min n candidate.number) (lexer.lexemes.size - 2)

/-- Puts a lexeme before the one with a given number, or behind all of them. -/
def insert (lexer : Lexer) (number : Option Nat) (lexeme : Lexeme) : Lexer :=
  let number := number.getD lexer.lexemes.size
  { lexer with lexemes := lexer.lexemes.insertIdxIfInBounds number lexeme }

/-! ### Blocks -/

/-- Opens a block at a column that is deeper than the innermost one, with a lexeme before the
    one with a given number or behind all of them. -/
def openBlock (lexer : Lexer) (mark : Mark) (number : Option Nat) (kind : LexemeKind) :
    Except Malformed Lexer :=
  if lexer.inFlow || lexer.columns.head?.any (mark.column ≤ ·) then .ok lexer
  else if depthLimit < lexer.columns.length + 1 then
    .error (lexer.candidate.mark.fault lexer.cursor.mark .tooDeep)
  else .ok { lexer.insert number ⟨mark.line, kind⟩ with columns := mark.column :: lexer.columns }

/-- Closes the blocks that are deeper than a column, or all of them. -/
def closeBlocks (lexer : Lexer) (column : Option Nat) (line : Nat) : Lexer :=
  if lexer.inFlow then lexer
  else
    let deeper (block : Nat) : Bool := column.all (· < block)
    let closed := (lexer.columns.takeWhile deeper).map fun _ => (⟨line, .blockEnd⟩ : Lexeme)
    { lexer with
      lexemes := lexer.lexemes ++ closed
      columns := lexer.columns.dropWhile deeper }

/-- Closes all blocks and gives up the candidate, before something that stands outside of
    documents. -/
def leaveDocument (lexer : Lexer) : Except Malformed Lexer := do
  let lexer ← (lexer.closeBlocks none lexer.cursor.mark.line).dropCandidate
  return { lexer with keyAllowed := false }

/-! ### Lexemes -/

/-- The end of the text.  It counts as the start of a line. -/
def addStreamEnd (lexer : Lexer) : Except Malformed Lexer := do
  if lexer.broken then .error ⟨0, .controlCharacter⟩
  else
    let mark := lexer.cursor.mark
    let mark := if mark.column = 0 then mark else { mark with line := mark.line + 1, column := 0 }
    let lexer ← { lexer with cursor := ⟨mark, []⟩ }.leaveDocument
    return lexer.emit .streamEnd lexer.cursor

def addDirective (lexer : Lexer) : Except Malformed Lexer := do
  let lexer ← lexer.leaveDocument
  let (kind, rest) ← takeDirective lexer.cursor
  return lexer.emit kind rest

def addMarker (lexer : Lexer) (kind : LexemeKind) : Except Malformed Lexer := do
  let lexer ← lexer.leaveDocument
  return lexer.emit kind (lexer.cursor.skip 3)

/-- An opening bracket.  The collection may be a key, and a key may start in it. -/
def addOpening (lexer : Lexer) (kind : LexemeKind) : Except Malformed Lexer := do
  let lexer ← lexer.saveCandidate
  let mark := lexer.cursor.mark
  if depthLimit < lexer.outer.length + 1 then .error (mark.fault mark .tooDeep)
  else
    let lexer := { lexer with
      candidate := { number := lexer.lexemes.size, mark }
      outer := lexer.candidate :: lexer.outer
      keyAllowed := true }
    return lexer.emit kind (lexer.cursor.skip 1)

/-- A closing bracket.  If no candidate was in the collection, reading does not wait for the
    collection itself any more. -/
def addClosing (lexer : Lexer) (kind : LexemeKind) : Except Malformed Lexer := do
  let lexer ← lexer.dropCandidate
  let release (candidate : Candidate) : Candidate :=
    { candidate with awaited := candidate.awaited && candidate.number != lexer.candidate.number }
  let lexer := match lexer.outer with
    | [] => lexer
    | candidate :: outer =>
      { lexer with candidate := release candidate, outer := outer.map release }
  return { lexer with keyAllowed := false }.emit kind (lexer.cursor.skip 1)

def addComma (lexer : Lexer) : Except Malformed Lexer := do
  let lexer ← lexer.dropCandidate
  return { lexer with keyAllowed := true }.emit .comma (lexer.cursor.skip 1)

/-- The dash of an item. -/
def addItem (lexer : Lexer) : Except Malformed Lexer := do
  let mark := lexer.cursor.mark
  if !lexer.inFlow && !lexer.keyAllowed then .error (mark.fault mark .misplacedItem)
  else
    let lexer ← lexer.openBlock mark none .blockSequence
    let lexer ← lexer.dropCandidate
    return { lexer with keyAllowed := true }.emit .item (lexer.cursor.skip 1)

/-- The question mark of a key. -/
def addKey (lexer : Lexer) : Except Malformed Lexer := do
  let mark := lexer.cursor.mark
  if !lexer.inFlow && !lexer.keyAllowed then .error (mark.fault mark .misplacedKey)
  else
    let lexer ← lexer.openBlock mark none .blockMapping
    let lexer ← lexer.dropCandidate
    return { lexer with keyAllowed := !lexer.inFlow }.emit .key (lexer.cursor.skip 1)

/-- The colon before a value.  What stands at the candidate is the key, if that is still
    possible.  Where reading has passed it, the lexemes for the key come too late and stand
    here. -/
def addValue (lexer : Lexer) : Except Malformed Lexer := do
  let mark := lexer.cursor.mark
  let candidate := lexer.candidate
  if candidate.possible && !lexer.isStale candidate then
    let number := if lexer.reached ≤ candidate.number then some candidate.number else none
    let lexer := lexer.insert number ⟨candidate.mark.line, .key⟩
    let lexer ← lexer.openBlock candidate.mark number .blockMapping
    let lexer := { lexer with
      candidate := { candidate with possible := false }
      keyAllowed := false }
    return lexer.emit .value (lexer.cursor.skip 1)
  else
    let lexer ← lexer.dropCandidate
    if !lexer.inFlow && !lexer.keyAllowed then .error (mark.fault mark .misplacedValue)
    else
      let lexer ← lexer.openBlock mark none .blockMapping
      return { lexer with keyAllowed := !lexer.inFlow }.emit .value (lexer.cursor.skip 1)

/-- An anchor or a reference. -/
def addName (lexer : Lexer) (kind : String → LexemeKind) : Except Malformed Lexer := do
  let lexer ← lexer.saveCandidate
  let (name, rest) ← takeName lexer.cursor
  return { lexer with keyAllowed := false }.emit (kind name) rest

def addTag (lexer : Lexer) : Except Malformed Lexer := do
  let lexer ← lexer.saveCandidate
  let (handle, tag, rest) ← takeTag lexer.cursor
  return { lexer with keyAllowed := false }.emit (.tag handle tag) rest

/-- A block scalar.  It is no key, but behind it a line starts. -/
def addBlock (lexer : Lexer) (literal : Bool) : Except Malformed Lexer := do
  let lexer ← lexer.dropCandidate
  let (text, rest) ← takeBlock literal lexer.columns.head? lexer.cursor
  return { lexer with keyAllowed := true }.emit (.scalar false text) rest

def addQuoted (lexer : Lexer) (single : Bool) : Except Malformed Lexer := do
  let lexer ← lexer.saveCandidate
  let (text, rest) ← takeQuoted single lexer.cursor
  return { lexer with keyAllowed := false }.emit (.scalar false text) rest

/-- A plain scalar.  A key may start behind it if its line has ended. -/
def addPlain (lexer : Lexer) : Except Malformed Lexer := do
  let lexer ← lexer.saveCandidate
  let indent := lexer.columns.head?.elim 0 (· + 1)
  let (text, ended, rest) ← takePlain lexer.inFlow indent lexer.cursor
  return { lexer with keyAllowed := ended }.emit (.scalar true text) rest

/-- Whether a plain scalar may start with a character.  Most punctuation has another meaning at
    this place. -/
def startsPlain (inFlow : Bool) (c : Char) (text : List Char) : Bool :=
  if c == '-' then !(text.head?.any isBlank)
  else if c == '?' || c == ':' then !inFlow && !endsWord text
  else !isBlank c && !isBreak c && !",[]\x7b\x7d#&*!|>'\"%@`".toList.contains c

/-- Finds the next lexeme. -/
def next (lexer : Lexer) : Except Malformed Lexer :=
  let line := lexer.cursor.mark.line
  let (keyAllowed, cursor) := passFrom lexer.inFlow false false lexer.keyAllowed
    lexer.cursor.mark lexer.cursor.text
  let lexer := { lexer with keyAllowed, cursor }.closeBlocks (some cursor.mark.column) line
  match cursor.text with
  | [] => lexer.addStreamEnd
  | c :: text =>
    let lineStart := cursor.mark.column == 0
    if lineStart && c == '%' then lexer.addDirective
    else if lineStart && startsMarker (c :: text) then
      lexer.addMarker (if c == '-' then .documentStart else .documentEnd)
    else if c == '[' then lexer.addOpening .flowSequence
    else if c == '\x7b' then lexer.addOpening .flowMapping
    else if c == ']' then lexer.addClosing .flowSequenceEnd
    else if c == '\x7d' then lexer.addClosing .flowMappingEnd
    else if c == ',' then lexer.addComma
    else if c == '-' && endsWord text then lexer.addItem
    else if c == '?' && (lexer.inFlow || endsWord text) then lexer.addKey
    else if c == ':' && (lexer.inFlow || endsWord text) then lexer.addValue
    else if c == '*' then lexer.addName .reference
    else if c == '&' then lexer.addName .anchor
    else if c == '!' then lexer.addTag
    else if c == '|' && !lexer.inFlow then lexer.addBlock true
    else if c == '>' && !lexer.inFlow then lexer.addBlock false
    else if c == '\'' then lexer.addQuoted true
    else if c == '"' then lexer.addQuoted false
    else if startsPlain lexer.inFlow c text then lexer.addPlain
    else .error (cursor.mark.fault cursor.mark .strayCharacter)

/-- Finds all lexemes up to the end or the first problem.  Each of them takes a character of the
    text, so that one more than its length is `fuel` enough. -/
def run : Nat → Lexer → Lexer × Option Malformed
  | 0, lexer => (lexer, none)
  | fuel + 1, lexer =>
    match lexer.next with
    | .error fault => (lexer, some fault)
    | .ok later =>
      if later.lexemes.back?.any (·.kind == .streamEnd) then (later, none) else run fuel later

/-- The lexemes that can be read, from a given number on, and what stops reading behind them.
    A problem in the text stops it two lexemes ahead, or where it waits to know whether there
    is a key. -/
def readable (lexer : Lexer) (fault : Option Malformed) (number : Nat) :
    List Lexeme → List Lexeme × Option Malformed
  | [] => ([], fault)
  | lexeme :: later =>
    if fault.isSome && lexer.lexemes.size ≤ number + 2 then ([], fault)
    else
      let waiting := (lexer.candidate :: lexer.outer).find? fun candidate =>
        candidate.possible && candidate.awaited && candidate.number == number
      let stop := waiting.bind fun candidate =>
        if !lexer.isStale candidate then fault
        else if candidate.required then some (lexer.keyFault candidate) else none
      match stop with
      | some fault => ([], some fault)
      | none =>
        let (lexemes, stop) := lexer.readable fault (number + 1) later
        (lexeme :: lexemes, stop)

end Lexer

/-- The lexemes of a text that can be read, and what stops reading behind them. -/
def Lexeme.scan (text : String) : List Lexeme × Option Malformed :=
  match Cursor.ofString text with
  | .error fault => ([], some fault)
  | .ok (cursor, broken) =>
    let (lexer, fault) := Lexer.run (cursor.text.length + 1) { cursor, broken }
    lexer.readable fault 0 lexer.lexemes.toList

end Redex.Settings
