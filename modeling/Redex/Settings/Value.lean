import Redex.Settings.Malformed
import Redex.Settings.Timestamp
import Redex.Text.Base64
import Redex.Text.Binary64
import Redex.Text.Numeral
import Redex.Text.Utf8

/-! # Values of scalars

    A scalar without a tag is read by its text: as nothing, a truth value, a number, a
    timestamp or, failing these, as a string.  A tag says which of these it has to be. -/

namespace Redex.Settings

/-- What a scalar stands for. -/
inductive Value where
  | null
  | bool (value : Bool)
  | int (value : Int)
  /-- A number with a fraction or an exponent, by the integer it converts to, if any. -/
  | float (whole : Option Int)
  | timestamp
  | str (text : String)
deriving DecidableEq, Repr

/-- The tag that reports give a value. -/
def Value.tag : Value → String
  | .null => "!!null"
  | .bool _ => "!!bool"
  | .int _ => "!!int"
  | .float _ => "!!float"
  | .timestamp => "!!timestamp"
  | .str _ => "!!str"

/-! ### Numbers -/

/-- A run of decimal digits at the start of a text, by its digits, and the rest. -/
def takeDigits (text : List Char) : List Char × List Char :=
  (text.takeWhile Char.isDigit, text.dropWhile Char.isDigit)

/-- The number that a run of digits spells. -/
def digitsNumber (digits : List Char) : Nat :=
  digits.foldl (fun n c => n * 10 + (c.toNat - '0'.toNat)) 0

/-- The exponent at the end of a number. -/
def exponent? : List Char → Option Int
  | [] => some 0
  | e :: text =>
    if e == 'e' || e == 'E' then
      let (negative, digits) := match text with
        | '-' :: digits => (true, digits)
        | '+' :: digits => (false, digits)
        | digits => (false, digits)
      if digits.isEmpty || !digits.all Char.isDigit then none
      else
        let n : Int := digitsNumber digits
        some (if negative then -n else n)
    else none

/-- The integer that a held number converts to: its whole part, if that is at most
    `Text.signedBound`.  At that bound, and below the least integer of 64 bits, the conversion
    gives the least integer. -/
def wholeInt? (negative : Bool) (whole : Nat) : Option Int :=
  let least : Int := -Text.signedBound
  if negative then some (max least (-whole))
  else if whole < Text.signedBound then some whole
  else if whole = Text.signedBound then some least
  else none

/-- The value of a decimal number: digits with an optional point and an optional exponent.  A
    number too large to be held is none. -/
def decimal? (text : List Char) : Option Value :=
  let (negative, text) := match text with
    | '-' :: text => (true, text)
    | '+' :: text => (false, text)
    | text => (false, text)
  let (before, rest) := takeDigits text
  let (after, rest) := match rest with
    | '.' :: rest => takeDigits rest
    | rest => ([], rest)
  if before.isEmpty && after.isEmpty then none
  else do
    let exponent ← exponent? rest
    let whole ← Text.wholePart? (digitsNumber (before ++ after)) (exponent - after.length)
    return .float (wholeInt? negative whole)

/-- The value of digits in a base behind an optional sign. -/
def signedDigits? (base : Nat) (text : List Char) : Option Value :=
  let digits (text : List Char) : Except Text.NumeralError Nat :=
    if text.isEmpty then .error .malformed else Text.digitsValue base false 0 text
  (Text.withSign digits text).toOption.map .int

/-- The value of a binary or octal number whose sign stands behind the letter for its base. -/
def innerSign? : List Char → Option Value
  | '0' :: 'b' :: text => signedDigits? 2 text
  | '0' :: 'o' :: text => signedDigits? 8 text
  | '-' :: '0' :: 'b' :: text => signedDigits? 2 ('-' :: text)
  | '-' :: '0' :: 'o' :: text => signedDigits? 8 ('-' :: text)
  | _ => none

/-- The value of a number that starts with a digit or a sign.  Underscores are passed
    over. -/
def number? (text : List Char) : Option Value :=
  let text := text.filter (· != '_')
  match Text.withSign Text.prefixedValue text, Text.prefixedValue text with
  | .ok value, _ => some (.int value)
  | _, .ok value => some (.int value)
  | _, _ => (decimal? text).or (innerSign? text)

/-- Whether each underscore stands between two digits.  `digit` says whether the character
    before is one. -/
def separatesDigits (digit : Bool) : List Char → Bool
  | [] => true
  | '_' :: text => digit && text.head?.any Char.isDigit && separatesDigits false text
  | c :: text => separatesDigits c.isDigit text

/-- The value of a number that starts with a point.  Underscores may separate digits. -/
def fraction? (text : List Char) : Option Value :=
  if separatesDigits false text then decimal? (text.filter (· != '_')) else none

/-! ### Scalars -/

/-- The value of a scalar by its text.  `dated` says whether it may be a timestamp. -/
def plainValue (dated : Bool) (text : String) : Value :=
  if text ∈ ["", "~", "null", "Null", "NULL"] then .null
  else if text ∈ ["true", "True", "TRUE"] then .bool true
  else if text ∈ ["false", "False", "FALSE"] then .bool false
  else if text ∈ [".nan", ".NaN", ".NAN", ".inf", ".Inf", ".INF", "+.inf", "+.Inf", "+.INF"] then
    .float none
  else if text ∈ ["-.inf", "-.Inf", "-.INF"] then .float (some (-Text.signedBound))
  else
    match text.toList with
    | [] => .null
    | c :: chars =>
      if c == '.' then (fraction? (c :: chars)).getD (.str text)
      else if c.isDigit || c == '+' || c == '-' then
        if dated && isTimestamp (c :: chars) then .timestamp
        else (number? (c :: chars)).getD (.str text)
      else .str text

/-- The tag of a plain scalar that has none: that of its value, or the tag of the key that
    merges other mappings. -/
def plainTag (text : String) : String :=
  if text = "<<" then "!!merge" else (plainValue true text).tag

/-- The value of a scalar with a tag.  The known tags ask for a value of their kind, where an
    integer may stand for a number with a fraction.  A scalar with any other tag is a
    string. -/
def taggedValue (tag text : String) : Except Problem Value :=
  if tag = "!!binary" then
    match Text.decodeBase64? text with
    | some bytes => .ok (.str (Text.decodeUtf8 bytes))
    | none => .error .unfitBinary
  else if tag ∈ ["!!null", "!!bool", "!!int", "!!float", "!!timestamp"] then
    let value := plainValue (tag == "!!timestamp") text
    match value with
    | .int n =>
      if tag = "!!int" then .ok value
      else if tag = "!!float" && n < Text.signedBound then
        .ok (.float ((Text.wholePart? n.natAbs 0).bind (wholeInt? (n < 0))))
      else .error (.unfitTag value.tag text tag)
    | _ => if value.tag = tag then .ok value else .error (.unfitTag value.tag text tag)
  else .ok (.str text)

end Redex.Settings
