import Redex.Settings.Cursor
import Redex.Settings.Lexeme
import Redex.Settings.Lexeme.Scalar
import Redex.Text.Utf8

/-! # Anchors, tags and directives

    A node may have an anchor, under which it is used again, and a tag, which says what it
    is.  Directives stand before a document; they give the version of the format and short
    forms for the start of tags. -/

namespace Redex.Settings

/-! ### Anchors -/

/-- The name of the anchor or reference at a place, and the place behind it. -/
def takeName (cursor : Cursor) : Except Malformed (String × Cursor) :=
  let (name, rest) := (cursor.skip 1).span isNameChar
  let ends := endsWord rest.text || "?:,]\x7d%@`".toList.any (rest.text.head? == some ·)
  if name.isEmpty || !ends then .error (cursor.mark.fault rest.mark .missingName)
  else .ok (String.ofList name, rest)

/-! ### Tags -/

/-- The characters that stand for themselves in a tag. -/
def isUriChar (c : Char) : Bool :=
  isNameChar c || ";/?:@&=+$,.!~*'()[]".toList.contains c

/-- The number of bytes in the encoding of a character, by the first of them. -/
def octetCount? (octet : Nat) : Option Nat :=
  if octet < 0x80 then some 1
  else if 0xc0 ≤ octet && octet < 0xe0 then some 2
  else if 0xe0 ≤ octet && octet < 0xf0 then some 3
  else if 0xf0 ≤ octet && octet < 0xf8 then some 4
  else none

/-- The bytes that are due behind a byte, where `due` are due with it. -/
def octetsDue (due octet : Nat) : Except Problem Nat :=
  if due = 0 then
    match octetCount? octet with
    | some count => .ok (count - 1)
    | none => .error .wrongLeadingOctet
  else if 0x80 ≤ octet && octet < 0xc0 then .ok (due - 1)
  else .error .wrongTrailingOctet

/-- Reads the characters of a tag.  Bytes may be written as a percent sign and two
    hexadecimal digits; `due` bytes of a character are still to come, and the bytes so far
    stand in reverse. -/
def uriFrom (start : Mark) (due : Nat) (read : List UInt8) (mark : Mark) :
    List Char → Except Malformed (List UInt8 × Cursor)
  | [] =>
    if due = 0 then .ok (read, ⟨mark, []⟩) else .error (start.fault mark .brokenUriEscape)
  | '%' :: a :: b :: text =>
    match hexNumber? [a, b] with
    | none => .error (start.fault mark .brokenUriEscape)
    | some octet =>
      match octetsDue due octet with
      | .error problem => .error (start.fault mark problem)
      | .ok due => uriFrom start due (UInt8.ofNat octet :: read) (mark.right 3) text
  | c :: text =>
    if due ≠ 0 || c == '%' then .error (start.fault mark .brokenUriEscape)
    else if isUriChar c then uriFrom start 0 (UInt8.ofNat c.toNat :: read) (mark.right 1) text
    else .ok (read, ⟨mark, c :: text⟩)

/-- The characters of a tag at a place, behind a first part of it. -/
def takeUri (start : Mark) (before : List Char) (cursor : Cursor) :
    Except Malformed (String × Cursor) := do
  let (read, rest) ← uriFrom start 0 [] cursor.mark cursor.text
  return (String.ofList before ++ Text.decodeUtf8 read.reverse, rest)

/-- The handle at a place: an exclamation mark, a name, and another mark if there is one. -/
def takeHandle (cursor : Cursor) : List Char × Cursor :=
  let (name, rest) := (cursor.skip 1).span isNameChar
  if rest.text.head? == some '!' then ('!' :: name ++ ['!'], rest.skip 1)
  else ('!' :: name, rest)

/-- The tag at a place by its handle and the rest of it, and the place behind it.  A tag in
    angle brackets has no handle, and neither has a single exclamation mark. -/
def takeTag (cursor : Cursor) : Except Malformed (String × String × Cursor) := do
  let start := cursor.mark
  let (handle, rest, cursor) ←
    if cursor.text.drop 1 |>.head? |> (· == some '<') then
      let (uri, cursor) ← takeUri start [] (cursor.skip 2)
      if uri.isEmpty then .error (start.fault cursor.mark .missingUri)
      else if cursor.text.head? == some '>' then .ok ("", uri, cursor.skip 1)
      else .error (start.fault cursor.mark .missingUriEnd)
    else
      let (handle, cursor) := takeHandle cursor
      if handle.length > 1 && handle.getLast? == some '!' then
        let (uri, cursor) ← takeUri start [] cursor
        if uri.isEmpty then .error (start.fault cursor.mark .missingUri)
        else .ok (String.ofList handle, uri, cursor)
      else
        let (uri, cursor) ← takeUri start (handle.drop 1) cursor
        if uri.isEmpty then .ok ("", "!", cursor) else .ok ("!", uri, cursor)
  if endsWord cursor.text then return (handle, rest, cursor)
  else .error (start.fault cursor.mark .overfullTag)

/-! ### Directives -/

/-- A number of a version, which has at most two digits. -/
def takeVersionNumber (start : Mark) (cursor : Cursor) : Except Malformed (Nat × Cursor) :=
  let (digits, rest) := cursor.span Char.isDigit
  if digits.isEmpty then .error (start.fault cursor.mark .missingVersion)
  else if 2 < digits.length then .error (start.fault cursor.mark .longVersion)
  else .ok (digits.foldl (fun n c => n * 10 + (c.toNat - '0'.toNat)) 0, rest)

/-- A version behind its directive's name. -/
def takeVersion (start : Mark) (cursor : Cursor) : Except Malformed (LexemeKind × Cursor) := do
  let (major, cursor) ← takeVersionNumber start cursor.skipBlanks
  if cursor.text.head? != some '.' then .error (start.fault cursor.mark .missingVersionPoint)
  else
    let (minor, cursor) ← takeVersionNumber start (cursor.skip 1)
    return (.version major minor, cursor)

/-- A handle and what it stands for, behind the directive's name. -/
def takeHandleDirective (start : Mark) (cursor : Cursor) :
    Except Malformed (LexemeKind × Cursor) := do
  let cursor := cursor.skipBlanks
  if cursor.text.head? != some '!' then .error (start.fault cursor.mark .missingBang)
  else
    let (handle, cursor) := takeHandle cursor
    if handle.length > 1 && handle.getLast? != some '!' then
      .error (start.fault cursor.mark .missingBang)
    else if !(cursor.text.head?.any isBlank) then
      .error (start.fault cursor.mark .missingTagSpace)
    else
      let (uri, cursor) ← takeUri start [] cursor.skipBlanks
      if uri.isEmpty then .error (start.fault cursor.mark .missingUri)
      else if !endsWord cursor.text then .error (start.fault cursor.mark .overfullTagDirective)
      else return (.handle (String.ofList handle) uri, cursor)

/-- The directive at a place, and the start of the next line. -/
def takeDirective (cursor : Cursor) : Except Malformed (LexemeKind × Cursor) := do
  let start := cursor.mark
  let (name, cursor) := (cursor.skip 1).span isNameChar
  if name.isEmpty then .error (start.fault cursor.mark .missingDirectiveName)
  else if !endsWord cursor.text then .error (start.fault cursor.mark .overfullDirectiveName)
  else
    let (kind, cursor) ←
      if name == "YAML".toList then takeVersion start cursor
      else if name == "TAG".toList then takeHandleDirective start cursor
      else .error (start.fault cursor.mark .unknownDirective)
    return (kind, ← cursor.endLine start)

end Redex.Settings
