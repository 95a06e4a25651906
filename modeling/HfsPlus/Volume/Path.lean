import HfsPlus.Text.Utf16
import HfsPlus.Volume.Folder

/-!
# Paths

A path is a list of names between slashes, walked from the root one folder at a time. Slashes at
either end, or several in a row, add nothing.
-/

namespace HfsPlus

namespace Volume

/-- The names in a path. -/
def pathNames (path : String) : List Name :=
  ((path.toList.splitOn '/').filter (· ≠ [])).map (·.flatMap Text.Utf16.encodeChar)

/-- One step of a walk: looks a name up in an entry, which has to be a folder. -/
def enter (v : Volume) (entry : Entry) (name : Name) : Run Entry :=
  if entry.isFolder then v.lookup entry name else Run.fail .notFound

/-- Follows names from an entry on. -/
def walk (v : Volume) (start : Entry) (names : List Name) : Run Entry :=
  names.foldlM v.enter start

/-- The entry at a path. -/
def lookupPath (v : Volume) (path : String) : Run Entry :=
  v.walk .root (pathNames path)

end Volume

end HfsPlus
