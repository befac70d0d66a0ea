import Redex.Text.Utf8

/-! # The lines of a file

    A file is a sequence of lines, each ended by a newline; the last one may lack it if it
    is not empty.  Up to two carriage returns at the end of a line belong to its end.  A
    line and its newline have to fit into a buffer of `lineLimit` bytes.

    Where lines are read as they come, a line that does not fit into a buffer of `pieceLimit`
    bytes is read in several pieces. -/

namespace Redex.Text

/-- The size of the buffer that a line is read into, in bytes. -/
def lineLimit : Nat := 1048576

/-- Why a file has no lines. -/
inductive LinesError where
  /-- A line does not fit into the buffer. -/
  | tooLong
deriving DecidableEq, Repr

/-- The report of an error. -/
def LinesError.message : LinesError → String
  | .tooLong => "bufio.Scanner: token too long"

def newline : UInt8 := 10

def carriageReturn : UInt8 := 13

/-- A line without the carriage return at its end, if it has one. -/
def dropReturn (line : List UInt8) : List UInt8 :=
  if line.getLast? = some carriageReturn then line.dropLast else line

-- The named cases are used by the termination proof, which the linter does not see.
set_option linter.unusedVariables false in
/-- The lines of a byte sequence behind those already read, which stand in reverse. -/
def linesOnto (limit : Nat) (read : List (List UInt8)) (bytes : List UInt8) :
    Except LinesError (List (List UInt8)) :=
  let line := bytes.takeWhile (· != newline)
  if limit ≤ line.length then .error .tooLong
  else
    match h : bytes.dropWhile (· != newline) with
    | [] => .ok (if bytes.isEmpty then read else dropReturn (dropReturn line) :: read).reverse
    | _ :: rest => linesOnto limit (dropReturn (dropReturn line) :: read) rest
termination_by bytes.length
decreasing_by
  have hrest := (List.dropWhile_suffix (· != newline) (l := bytes)).length_le
  simp only [h, List.length_cons] at hrest
  omega

/-- The lines of a byte sequence. -/
def linesOfBytes (bytes : List UInt8) : Except LinesError (List (List UInt8)) :=
  linesOnto lineLimit [] bytes

/-- The lines of a text. -/
def linesOfText (text : String) : Except LinesError (List String) :=
  (linesOfBytes (encodeUtf8 text)).map (·.map decodeUtf8)

/-! ### Pieces -/

/-- The size of the buffer that a piece of a line is read into, in bytes. -/
def pieceLimit : Nat := 4096

/-- A line, or a part of one that does not fit into the buffer. -/
structure Piece where
  text : String
  /-- Whether the line ends with this piece. -/
  whole : Bool
deriving DecidableEq, Repr

/-- The first piece of a non-empty byte sequence, and the number of bytes that it takes.  A
    newline within the buffer ends it, with one carriage return before it; so does the end of
    the bytes.  Otherwise the buffer is full.  A carriage return at the end of a full buffer is
    left to the next piece, since a newline may follow it. -/
def firstPiece (bytes : List UInt8) : Piece × Nat :=
  let window := bytes.take pieceLimit
  let line := window.takeWhile (· != newline)
  if line.length < window.length then (⟨decodeUtf8 (dropReturn line), true⟩, line.length + 1)
  else if window.length < pieceLimit then (⟨decodeUtf8 line, true⟩, line.length)
  else (⟨decodeUtf8 (dropReturn line), false⟩, (dropReturn line).length)

/-- The pieces of a byte sequence behind those already read, which stand in reverse.  Each of
    them takes a byte, so that the number of bytes is `fuel` enough. -/
def piecesOnto (read : List Piece) : Nat → List UInt8 → List Piece
  | 0, _ => read.reverse
  | fuel + 1, bytes =>
    if bytes.isEmpty then read.reverse
    else
      let (piece, size) := firstPiece bytes
      piecesOnto (piece :: read) fuel (bytes.drop size)

/-- The pieces of a text. -/
def pieces (text : String) : List Piece :=
  let bytes := encodeUtf8 text
  piecesOnto [] bytes.length bytes

end Redex.Text
