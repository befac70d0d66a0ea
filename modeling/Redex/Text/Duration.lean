/-! # The text of a duration

    A duration is written in the largest of the units ns, µs, ms and s that it reaches, with
    its fraction; from a minute on, hours, minutes and seconds stand side by side. -/

namespace Redex.Text

/-- A number of units, each of `Nat.pow 10 places` parts, with its fraction as far as it has
    one. -/
def withFraction (parts places : Nat) : String :=
  let unit := Nat.pow 10 places
  let whole := parts / unit
  let fraction := (Nat.toDigits 10 (parts % unit + unit)).drop 1
  let shown := (fraction.reverse.dropWhile (· == '0')).reverse
  toString whole ++ if shown.isEmpty then "" else "." ++ String.ofList shown

/-- The text of a number of nanoseconds. -/
def durationOf (nanoseconds : Nat) : String :=
  if nanoseconds = 0 then "0s"
  else if nanoseconds < 1000 then toString nanoseconds ++ "ns"
  else if nanoseconds < 1000000 then withFraction nanoseconds 3 ++ "µs"
  else if nanoseconds < 1000000000 then withFraction nanoseconds 6 ++ "ms"
  else
    let minutes := nanoseconds / 60000000000
    let seconds := withFraction (nanoseconds % 60000000000) 9 ++ "s"
    if minutes = 0 then seconds
    else if minutes < 60 then toString minutes ++ "m" ++ seconds
    else toString (minutes / 60) ++ "h" ++ toString (minutes % 60) ++ "m" ++ seconds

/-- The text of a duration; a negative one has a minus sign. -/
def durationText (nanoseconds : Int64) : String :=
  (if nanoseconds < 0 then "-" else "") ++ durationOf nanoseconds.toInt.natAbs

/-- Fills a text with spaces on its left. -/
def padLeft (width : Nat) (text : String) : String :=
  String.ofList (List.replicate (width - text.length) ' ') ++ text

/-- Fills a text with spaces on its right. -/
def padRight (width : Nat) (text : String) : String :=
  text ++ String.ofList (List.replicate (width - text.length) ' ')

end Redex.Text
