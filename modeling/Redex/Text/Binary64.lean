/-! # Whole parts of rounded fractions

    A decimal fraction that is held in binary with 53 significant digits is first rounded
    to the nearest such number, a half going to the even neighbour.  `wholePart?` is the
    whole part of what is then held. -/

namespace Redex.Text

/-- The quotient rounded to the nearest whole number, a half to the even one. -/
def roundHalfEven (num den : Nat) : Nat :=
  let quotient := num / den
  let twice := 2 * (num % den)
  if twice < den then quotient
  else if den < twice then quotient + 1
  else quotient + quotient % 2

/-- The whole part of `num / den` held with 53 significant binary digits. -/
def wholeOfQuotient (num den : Nat) : Nat :=
  -- the exponent of the lowest digit, chosen such that the quotient has 53 digits or one more
  let scale : Int := (Nat.log2 num : Int) - Nat.log2 den - 52
  let num' := num <<< (-scale).toNat
  let den' := den <<< scale.toNat
  let shifted := num' / den'
  -- one digit too few: the quotient of the leading digits was below 1
  let (scale, digits) :=
    if shifted < 1 <<< 52 then
      (scale - 1, roundHalfEven (num <<< (1 - scale).toNat) (den <<< (scale - 1).toNat))
    else (scale, roundHalfEven num' den')
  (digits <<< scale.toNat) >>> (-scale).toNat

/-- The whole part of `digits` times ten to the power of `exponent` as it is held, unless that
    is too large to be held. -/
def wholePart? (digits : Nat) (exponent : Int) : Option Nat :=
  let magnitude := (Nat.toDigits 10 digits).length + exponent
  if digits = 0 ∨ magnitude < -20 then some 0
  else if 320 < magnitude then none
  else
    let whole := wholeOfQuotient (digits * Nat.pow 10 exponent.toNat) (Nat.pow 10 (-exponent).toNat)
    if whole < 1 <<< 1024 then some whole else none

end Redex.Text
