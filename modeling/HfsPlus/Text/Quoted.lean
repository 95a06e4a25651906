import HfsPlus.Text.Ascii
import HfsPlus.Text.CombiningMark
import HfsPlus.Text.Unprintable

/-!
# Quoted text

A name may hold any character, and a reader of a report has to see which. Quoted text stands
between double quotes; inside, a quote and a backslash take a backslash in front, the common
controls have letters of their own, and whatever would not show is given by its code point.
-/

namespace HfsPlus.Text.Quoted

/-- A character by its code point. -/
def byCodePoint (c : Char) : List Char :=
  ("\\u\x7b" ++ hexDigits 1 c.toNat ++ "\x7d").toList

/-- A character as it stands between the quotes. -/
def encodeChar (c : Char) : List Char :=
  if c = '\x00' then ['\\', '0']
  else if c = '\t' then ['\\', 't']
  else if c = '\r' then ['\\', 'r']
  else if c = '\n' then ['\\', 'n']
  else if c = '\\' then ['\\', '\\']
  else if c = '\x22' then ['\\', '\x22']
  else if isCombiningMark c || !isPrintable c then byCodePoint c
  else [c]

/-- A string between quotes. -/
def encode (s : String) : String :=
  String.ofList ('\x22' :: s.toList.flatMap encodeChar ++ ['\x22'])

end HfsPlus.Text.Quoted
