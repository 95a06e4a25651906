/-!
# UTF-16

Names are stored as 16-bit units. A character beyond the first 65536 takes two of them, a high and
a low surrogate; a surrogate without its partner stands for no character.
-/

namespace HfsPlus.Text.Utf16

/-- Whether a unit is the first half of a pair. -/
def isHighSurrogate (u : UInt16) : Bool := 0xD800 ≤ u && u ≤ 0xDBFF

/-- Whether a unit is the second half of a pair. -/
def isLowSurrogate (u : UInt16) : Bool := 0xDC00 ≤ u && u ≤ 0xDFFF

/-- The units of one character. -/
def encodeChar (c : Char) : List UInt16 :=
  if c.toNat < 0x10000 then
    [UInt16.ofNat c.toNat]
  else
    let n := c.toNat - 0x10000
    [UInt16.ofNat (0xD800 + n / 0x400), UInt16.ofNat (0xDC00 + n % 0x400)]

/-- The units of a string. -/
def encode (s : String) : List UInt16 :=
  s.toList.flatMap encodeChar

/-- What stands in the place of a surrogate without its partner. -/
def replacement : Char := '\uFFFD'

/-- The character of a unit that is not part of a pair. -/
def single (u : UInt16) : Char :=
  if isHighSurrogate u || isLowSurrogate u then replacement else Char.ofNat u.toNat

/-- The character of a pair of surrogates. -/
def paired (hi lo : UInt16) : Char :=
  Char.ofNat (0x10000 + (hi.toNat - 0xD800) * 0x400 + (lo.toNat - 0xDC00))

/-- The characters of a list of units, each lone surrogate replaced. -/
def decodeChars : List UInt16 → List Char
  | [] => []
  | [u] => [single u]
  | u :: v :: rest =>
    if isHighSurrogate u && isLowSurrogate v then paired u v :: decodeChars rest
    else single u :: decodeChars (v :: rest)

/-- The string of a list of units, each lone surrogate replaced. -/
def decode (units : List UInt16) : String :=
  String.ofList (decodeChars units)

end HfsPlus.Text.Utf16
