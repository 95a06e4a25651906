import HfsPlus.Bytes

/-!
# Bytes as ASCII text

Link targets are bytes, and a hard link's target holds zeros. `Ascii.bytes` gives the bytes of a
text, `Ascii.escape` shows any bytes as text.
-/

namespace HfsPlus.Text

/-- The hexadecimal digits of a number, in lower case, with zeros in front up to `width` digits. -/
def hexDigits (width n : Nat) : String :=
  let digits := Nat.toDigits 16 n
  String.ofList (List.replicate (width - digits.length) '0' ++ digits)

namespace Ascii

/-- The bytes of a text all of whose characters are ASCII. -/
def bytes (s : String) : Bytes :=
  s.toList.map fun c => UInt8.ofNat c.toNat

/-- A byte as text: itself if it is a printable ASCII character other than a quote or a backslash,
else behind a backslash. -/
def escapeByte (b : UInt8) : String :=
  if b = 0x09 then "\\t"
  else if b = 0x0A then "\\n"
  else if b = 0x0D then "\\r"
  else if b = 0x22 then "\\\x22"
  else if b = 0x27 then "\\\x27"
  else if b = 0x5C then "\\\\"
  else if 0x20 ≤ b && b ≤ 0x7E then String.singleton (Char.ofNat b.toNat)
  else "\\x" ++ hexDigits 2 b.toNat

/-- Bytes as text, one after the other. -/
def escape (bs : Bytes) : String :=
  String.join (bs.map escapeByte)

end Ascii

end HfsPlus.Text
