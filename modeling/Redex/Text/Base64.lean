/-! # Bytes in base 64

    Three bytes are written as four of 64 characters.  One or two bytes at the end are filled
    up with equals signs.  Line ends are passed over. -/

namespace Redex.Text

/-- The value of a character in base 64. -/
def sextet? (c : Char) : Option Nat :=
  if c.isUpper then some (c.toNat - 'A'.toNat)
  else if c.isLower then some (c.toNat - 'a'.toNat + 26)
  else if c.isDigit then some (c.toNat - '0'.toNat + 52)
  else if c == '+' then some 62
  else if c == '/' then some 63
  else none

/-- The bytes that four characters spell. -/
def quartet? (a b c d : Char) : Option (List UInt8) := do
  let a ← sextet? a
  let b ← sextet? b
  let first := UInt8.ofNat (a * 4 + b / 16)
  if c == '=' then if d == '=' then some [first] else none
  else
    let c ← sextet? c
    let second := UInt8.ofNat (b % 16 * 16 + c / 4)
    if d == '=' then some [first, second]
    else
      let d ← sextet? d
      return [first, second, UInt8.ofNat (c % 4 * 64 + d)]

/-- The bytes that a text without line ends spells.  Only the last four characters may be
    filled up. -/
def bytesOfBase64? : List Char → Option (List UInt8)
  | [] => some []
  | a :: b :: c :: d :: text => do
    let bytes ← quartet? a b c d
    if bytes.length < 3 && !text.isEmpty then none
    else return bytes ++ (← bytesOfBase64? text)
  | _ => none

/-- The bytes that a text spells in base 64. -/
def decodeBase64? (text : String) : Option (List UInt8) :=
  bytesOfBase64? (text.toList.filter fun c => c != '\n' && c != '\r')

end Redex.Text
