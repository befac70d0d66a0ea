/-! # Text from bytes

    `decodeUtf8` reads any sequence of bytes as text.  Bytes that belong to no well-formed
    character stand for the replacement character, one for each byte. -/

namespace Redex.Text

/-- The character that stands for a byte outside every well-formed character. -/
def replacement : Char := '�'

/-- What the first byte of a character tells: how many bytes follow, the least code that is
    spelled at this length, and the bits of the code that the byte holds. -/
def leadByte? (byte : UInt8) : Option (Nat × Nat × Nat) :=
  if byte < 0x80 then some (0, 0, byte.toNat)
  else if byte < 0xc0 then none
  else if byte < 0xe0 then some (1, 0x80, byte.toNat - 0xc0)
  else if byte < 0xf0 then some (2, 0x800, byte.toNat - 0xe0)
  else if byte < 0xf8 then some (3, 0x10000, byte.toNat - 0xf0)
  else none

/-- Adds the bits of `count` continuation bytes to a code, and returns the bytes behind
    them. -/
def continueCode? : Nat → Nat → List UInt8 → Option (Nat × List UInt8)
  | 0, code, rest => some (code, rest)
  | _ + 1, _, [] => none
  | count + 1, code, byte :: rest =>
    if 0x80 ≤ byte ∧ byte < 0xc0 then
      continueCode? count (code * 0x40 + (byte.toNat - 0x80)) rest
    else none

theorem continueCode?_length {count code result : Nat} {bytes rest : List UInt8}
    (h : continueCode? count code bytes = some (result, rest)) :
    rest.length ≤ bytes.length := by
  fun_induction continueCode? count code bytes <;> simp_all
  omega

/-- The well-formed character at the start of a byte sequence, and the bytes behind it.
    Each character has one well-formed spelling: its shortest. -/
def firstChar? : List UInt8 → Option (Char × List UInt8)
  | [] => none
  | byte :: rest =>
    match leadByte? byte with
    | none => none
    | some (count, least, bits) =>
      match continueCode? count bits rest with
      | none => none
      | some (code, rest) =>
        if least ≤ code ∧ code.isValidChar then some (Char.ofNat code, rest) else none

theorem firstChar?_length {bytes rest : List UInt8} {c : Char}
    (h : firstChar? bytes = some (c, rest)) : rest.length < bytes.length := by
  unfold firstChar? at h
  split at h
  · simp at h
  · split at h
    · simp at h
    · split at h
      · simp at h
      · rename_i hcode
        have hlen := continueCode?_length hcode
        grind

-- The named cases are used by the termination proof, which the linter does not see.
set_option linter.unusedVariables false in
/-- The characters of a byte sequence behind those already read, which stand in reverse. -/
def decodeOnto (read : List Char) (bytes : List UInt8) : List Char :=
  match bytes with
  | [] => read.reverse
  | byte :: later =>
    match h : firstChar? (byte :: later) with
    | some (c, rest) => decodeOnto (c :: read) rest
    | none => decodeOnto (replacement :: read) later
termination_by bytes.length
decreasing_by
  · exact firstChar?_length h
  · simp

/-- The text of a byte sequence. -/
def decodeUtf8 (bytes : List UInt8) : String :=
  String.ofList (decodeOnto [] bytes)

/-- The bytes of a text. -/
def encodeUtf8 (text : String) : List UInt8 :=
  text.toUTF8.toList

end Redex.Text
