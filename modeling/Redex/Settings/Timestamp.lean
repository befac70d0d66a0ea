/-! # Timestamps

    A timestamp is a date, alone or with a time of day.  The time is set off by a letter `T`
    and followed by a time zone, or set off by spaces and followed by nothing.  Of the numbers
    only the year has a fixed width. -/

namespace Redex.Settings

/-- A number of one or two digits, and the text behind it. -/
def takeField? : List Char → Option (Nat × List Char)
  | [] => none
  | c :: text =>
    if !c.isDigit then none
    else
      let units := c.toNat - '0'.toNat
      match text with
      | d :: rest =>
        if d.isDigit then some (units * 10 + (d.toNat - '0'.toNat), rest) else some (units, text)
      | [] => some (units, [])

/-- A character that has to stand at the start of a text. -/
def behind? (c : Char) : List Char → Option (List Char)
  | d :: text => if d == c then some text else none
  | [] => none

/-- The number of days of a month. -/
def daysOf (year month : Nat) : Nat :=
  if month == 2 then
    if year % 4 == 0 && (year % 100 != 0 || year % 400 == 0) then 29 else 28
  else if month ∈ [4, 6, 9, 11] then 30 else 31

/-- A date, and the text behind it. -/
def takeDate? (text : List Char) : Option (List Char) := do
  let year := text.takeWhile Char.isDigit
  if year.length ≠ 4 then none
  else
    let (month, text) ← takeField? (← behind? '-' (text.drop 4))
    let (day, text) ← takeField? (← behind? '-' text)
    let year := year.foldl (fun n c => n * 10 + (c.toNat - '0'.toNat)) 0
    if 1 ≤ month && month ≤ 12 && 1 ≤ day && day ≤ daysOf year month then some text else none

/-- The text behind the fraction of a second, if there is one. -/
def skipFraction : List Char → List Char
  | c :: d :: text =>
    if (c == '.' || c == ',') && d.isDigit then text.dropWhile Char.isDigit else c :: d :: text
  | text => text

/-- A time of day, and the text behind it. -/
def takeTime? (text : List Char) : Option (List Char) := do
  let (hour, text) ← takeField? text
  let (minute, text) ← takeField? (← behind? ':' text)
  let (second, text) ← takeField? (← behind? ':' text)
  if hour < 24 && minute < 60 && second < 60 then some (skipFraction text) else none

/-- Whether a text is a time zone. -/
def isZone : List Char → Bool
  | ['Z'] => true
  | [sign, a, b, ':', c, d] =>
    (sign == '+' || sign == '-')
      && (match takeField? [a, b], takeField? [c, d] with
        | some (hours, []), some (minutes, []) => hours ≤ 24 && minutes ≤ 60
        | _, _ => false)
  | _ => false

/-- Whether a text is a timestamp. -/
def isTimestamp (text : List Char) : Bool :=
  match takeDate? text with
  | none => false
  | some [] => true
  | some (c :: text) =>
    if c == 'T' || c == 't' then (takeTime? text).any isZone
    else c == ' ' && takeTime? (text.dropWhile (· == ' ')) == some []

end Redex.Settings
