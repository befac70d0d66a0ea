/-! # Integer numerals

    Reading the text of an integer of 64 bits.  A plain numeral is decimal.  A prefixed
    numeral may also be hexadecimal (`0x`), octal (`0o`, or a leading `0`) or binary (`0b`),
    and may have single underscores between its digits. -/

namespace Redex.Text

/-- Why a text is no numeral. -/
inductive NumeralError where
  | malformed
  | outOfRange
deriving DecidableEq, Repr

/-- The report of an error. -/
def NumeralError.message : NumeralError → String
  | .malformed => "parse error"
  | .outOfRange => "value out of range"

/-- The value of a digit in bases up to 36. -/
def digitValue? (c : Char) : Option Nat :=
  if c.isDigit then some (c.toNat - '0'.toNat)
  else if c.isLower then some (c.toNat - 'a'.toNat + 10)
  else if c.isUpper then some (c.toNat - 'A'.toNat + 10)
  else none

/-- The largest value of 64 bits without a sign. -/
def maxUnsigned : Nat := 0xffffffffffffffff

/-- The number of values of 64 bits with a minus sign: two to the power of 63. -/
def signedBound : Nat := 0x8000000000000000

/-- The value of a run of digits in a base, read behind digits with the value `value`.
    Reading stops at the first fault.  Underscores are passed over if `underscores` allows
    them. -/
def digitsValue (base : Nat) (underscores : Bool) (value : Nat) :
    List Char → Except NumeralError Nat
  | [] => .ok value
  | c :: text =>
    if underscores && c == '_' then digitsValue base underscores value text
    else
      match digitValue? c with
      | none => .error .malformed
      | some digit =>
        if base ≤ digit then .error .malformed
        else if maxUnsigned < value * base + digit then .error .outOfRange
        else digitsValue base underscores (value * base + digit) text

/-- The base of a prefixed numeral without its sign, and the digits behind the prefix. -/
def splitBase : List Char → Nat × List Char
  | '0' :: p :: d :: text =>
    if p.toLower == 'b' then (2, d :: text)
    else if p.toLower == 'o' then (8, d :: text)
    else if p.toLower == 'x' then (16, d :: text)
    else (8, p :: d :: text)
  | '0' :: text => (8, text)
  | text => (10, text)

/-- Whether each underscore stands between two digits.  `digit` says whether the character
    before is a digit or the end of a prefix. -/
def underscoresSeparate (digit : Bool) : List Char → Bool
  | [] => true
  | '_' :: [] => false
  | '_' :: c :: text => digit && c != '_' && underscoresSeparate true (c :: text)
  | _ :: text => underscoresSeparate true text

/-- The value of a prefixed numeral without a sign. -/
def prefixedValue (text : List Char) : Except NumeralError Nat :=
  if text.isEmpty then .error .malformed
  else
    let (base, digits) := splitBase text
    match digitsValue base true 0 digits with
    | .error e => .error e
    | .ok value =>
      let behindPrefix := base != 10
      if underscoresSeparate behindPrefix digits then .ok value else .error .malformed

/-- The value of a plain numeral without a sign. -/
def plainValue (text : List Char) : Except NumeralError Nat :=
  if text.isEmpty then .error .malformed else digitsValue 10 false 0 text

/-- Gives a value its sign, within the bounds of a signed integer of 64 bits. -/
def signed (negative : Bool) (value : Nat) : Except NumeralError Int :=
  if negative then if value ≤ signedBound then .ok (-value) else .error .outOfRange
  else if value < signedBound then .ok value else .error .outOfRange

/-- Reads an optional sign and, behind it, a value. -/
def withSign (value : List Char → Except NumeralError Nat) :
    List Char → Except NumeralError Int
  | '-' :: text => (value text).bind (signed true)
  | '+' :: text => (value text).bind (signed false)
  | text => (value text).bind (signed false)

/-- The integer that a prefixed numeral spells. -/
def prefixedInt (text : String) : Except NumeralError Int :=
  withSign prefixedValue text.toList

/-- The integer that a plain numeral spells. -/
def plainInt (text : String) : Except NumeralError Int :=
  withSign plainValue text.toList

end Redex.Text
