import Redex.Text.Class

/-! # Quoted text

    Text between double quotes, with an escape for each character that would not show. -/

namespace Redex.Text

/-- The low `digits` hexadecimal digits of a number. -/
def hexDigits (digits number : Nat) : List Char :=
  let all := Nat.toDigits 16 number
  List.replicate (digits - all.length) '0' ++ all

/-- The spelling of a character between quotes. -/
def quoteChar (c : Char) : List Char :=
  if c == '"' || c == '\\' then ['\\', c]
  else if isPrintable c then [c]
  else match c.toNat with
    | 7 => ['\\', 'a']
    | 8 => ['\\', 'b']
    | 9 => ['\\', 't']
    | 10 => ['\\', 'n']
    | 11 => ['\\', 'v']
    | 12 => ['\\', 'f']
    | 13 => ['\\', 'r']
    | code =>
      if code < 0x80 then '\\' :: 'x' :: hexDigits 2 code
      else if code < 0x10000 then '\\' :: 'u' :: hexDigits 4 code
      else '\\' :: 'U' :: hexDigits 8 code

/-- A text between quotes. -/
def quote (text : String) : String :=
  String.ofList ('"' :: text.toList.flatMap quoteChar ++ ['"'])

end Redex.Text
