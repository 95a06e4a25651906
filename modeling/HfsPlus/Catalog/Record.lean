import HfsPlus.Catalog.File
import HfsPlus.Catalog.Folder
import HfsPlus.Catalog.Thread
import HfsPlus.Error

/-!
# Catalog records

What follows a key in a leaf of the catalog. The first two bytes say which of four records it is;
a record of any other type is kept as its type code, so that newer volumes stay readable.
-/

namespace HfsPlus

/-- The types of record that a catalog leaf holds. -/
inductive RecordType where
  /-- A folder. -/
  | folder
  /-- A file. -/
  | file
  /-- The way back from a folder to its parent. -/
  | folderThread
  /-- The way back from a file to its parent. -/
  | fileThread
deriving DecidableEq, Repr

namespace RecordType

/-- The type that a record's code stands for, if it is one of the four known. -/
def ofCode? (code : UInt16) : Option RecordType :=
  if code = 1 then some .folder
  else if code = 2 then some .file
  else if code = 3 then some .folderThread
  else if code = 4 then some .fileThread
  else none

/-- The code that a record of this type begins with. -/
def code : RecordType → UInt16
  | .folder => 1
  | .file => 2
  | .folderThread => 3
  | .fileThread => 4

theorem ofCode?_code (t : RecordType) : ofCode? t.code = some t := by
  cases t <;> rfl

theorem code_of_ofCode? {c : UInt16} {t : RecordType} (h : ofCode? c = some t) : t.code = c := by
  unfold ofCode? at h
  repeat' split at h
  all_goals cases h
  all_goals simp_all [code]

end RecordType

/-- The record behind a key in a leaf of the catalog. -/
inductive CatalogRecord where
  /-- A folder. -/
  | folder (folder : FolderRecord)
  /-- A file. -/
  | file (file : FileRecord)
  /-- The way back from a folder to its parent. -/
  | folderThread (thread : ThreadRecord)
  /-- The way back from a file to its parent. -/
  | fileThread (thread : ThreadRecord)
  /-- A record of a type that is not known. -/
  | unknown (code : UInt16)
deriving DecidableEq, Repr

namespace CatalogRecord

/-- Reads the data behind a key. Bytes behind the record are of no interest. -/
def parse (data : Bytes) : Except Error CatalogRecord := do
  let .ok (code, _) := Format.uint16.decode data | throw (.corrupted .missingRecordType)
  match RecordType.ofCode? code with
  | some .folder => return .folder (← FolderRecord.format.read data)
  | some .file => return .file (← FileRecord.format.read data)
  | some .folderThread => return .folderThread (← ThreadRecord.format.read data)
  | some .fileThread => return .fileThread (← ThreadRecord.format.read data)
  | none => return .unknown code

/-- The code of the record's type. -/
def code : CatalogRecord → UInt16
  | .folder _ => RecordType.folder.code
  | .file _ => RecordType.file.code
  | .folderThread _ => RecordType.folderThread.code
  | .fileThread _ => RecordType.fileThread.code
  | .unknown code => code

end CatalogRecord

end HfsPlus
