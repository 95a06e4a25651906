/-!
# Names

A name is a list of UTF-16 units, at most 255 of them on the volume. The catalog orders names
without regard to case, unit by unit, by a fold that knows the basic Latin capitals and four
letters more. A zero unit folds to the largest unit, so it never reads as the end of a name.
-/

namespace HfsPlus

/-- The UTF-16 units of a name. -/
abbrev Name := List UInt16

namespace Name

/-- The largest number of units in a name. -/
def maxLength : Nat := 255

/-- One unit as the catalog's order sees it. -/
def foldUnit (u : UInt16) : UInt16 :=
  if u = 0 then 0xFFFF
  else if 0x41 ≤ u && u ≤ 0x5A then u + 0x20
  else if u = 0xC6 || u = 0xD0 || u = 0xD8 || u = 0xDE then u + 0x20
  else u

/-- A name as the catalog's order sees it. -/
def fold (name : Name) : Name := name.map foldUnit

end Name

end HfsPlus
