import Redex.Text.Ranges

/-! # Character classes

    The classes that scanning, trimming and quoting ask about.  Below U+0080 each class is
    a comparison of code points; above, letters, decimal digits and printable characters
    come from tables. -/

namespace Redex.Text

/-- Letters of any script. -/
def isLetter (c : Char) : Bool :=
  if c.toNat < 0x80 then c.isAlpha else letterRanges.contains c.toNat

/-- Decimal digits of any script. -/
def isDecimal (c : Char) : Bool :=
  if c.toNat < 0x80 then c.isDigit else decimalRanges.contains c.toNat

/-- What a name may go on with: a letter or a decimal digit. -/
def isAlphanumeric (c : Char) : Bool :=
  isLetter c || isDecimal c

/-- White space: the separators that leave room on a line, and the line breaks.  The zero
    width space U+200B and the byte order mark U+FEFF are not among them. -/
def isBlank (c : Char) : Bool :=
  blankRanges.contains c.toNat
where
  blankRanges : Ranges :=
    [(0x09, 0x0d), (0x20, 0x20), (0x85, 0x85), (0xa0, 0xa0), (0x1680, 0x1680),
     (0x2000, 0x200a), (0x2028, 0x2029), (0x202f, 0x202f), (0x205f, 0x205f), (0x3000, 0x3000)]

/-- Control characters: U+0000 to U+001F and U+007F to U+009F. -/
def isControl (c : Char) : Bool :=
  c.toNat < 0x20 || (0x7f ≤ c.toNat && c.toNat < 0xa0)

/-- Characters that quoted text shows as themselves. -/
def isPrintable (c : Char) : Bool :=
  if c.toNat < 0x80 then 0x20 ≤ c.toNat && c.toNat < 0x7f else printableRanges.contains c.toNat

/-- The lower case of a character as far as it is an ASCII letter.  Two characters outside
    ASCII have an ASCII letter for their lower case: the dotted capital `İ` and the Kelvin
    sign. -/
def toLowerAscii (c : Char) : Char :=
  if c = 'İ' then 'i' else if c = 'K' then 'k' else c.toLower

/-- Text without the white space at its two ends. -/
def trimBlank (text : List Char) : List Char :=
  ((text.dropWhile isBlank).reverse.dropWhile isBlank).reverse

end Redex.Text
