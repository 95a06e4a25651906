import HfsPlus.Catalog.Name
import HfsPlus.Catalog.Record
import HfsPlus.Link
import HfsPlus.Text.Utf16

/-!
# Entries

An `Entry` is what a folder shows: a file, a folder or a link, under its name, with the attributes
that reading needs. It is made from a catalog record and the key in front of it. A record that is
neither file nor folder gives an entry of unknown kind, without number or attributes.
-/

namespace HfsPlus

/-- What an entry is. -/
inductive EntryKind where
  /-- A file with contents. -/
  | file
  /-- A folder. -/
  | folder
  /-- A hard or symbolic link; see `Entry.linkKind?`. -/
  | link
  /-- Anything else, thread records among them. -/
  | unknown
deriving DecidableEq, Repr

namespace EntryKind

/-- The kind's name. -/
def name : EntryKind → String
  | .file => "File"
  | .folder => "Directory"
  | .link => "Symlink"
  | .unknown => "Unknown"

end EntryKind

/-- A file, folder or link. -/
structure Entry where
  /-- The number of the file or folder. -/
  id : CatalogId
  /-- The folder that holds the entry. -/
  parentId : CatalogId
  /-- The name, as the key spells it. -/
  name : Name := []
  /-- What the entry is. -/
  kind : EntryKind
  /-- The contents. -/
  dataFork : Fork := .empty
  /-- When the entry was created. -/
  createTime : Timestamp := 0
  /-- When the contents last changed. -/
  modifyTime : Timestamp := 0
  /-- When the entry was last read. -/
  accessTime : Timestamp := 0
  /-- The type code. -/
  fileType : FourCharCode := 0
  /-- The creator code. -/
  fileCreator : FourCharCode := 0
  /-- The number of the file that a hard link stands for. -/
  inodeNumber : UInt32 := 0
deriving DecidableEq, Repr

namespace Entry

/-- The root folder. -/
def root : Entry where
  id := .rootFolder
  parentId := .rootParent
  kind := .folder

/-- The entry of a folder record. -/
def ofFolder (parentId : CatalogId) (name : Name) (r : FolderRecord) : Entry where
  id := r.folderId
  parentId := parentId
  name := name
  kind := .folder
  createTime := r.createDate
  modifyTime := r.contentModDate
  accessTime := r.accessDate

/-- The entry of a file record: a link if its codes say so. -/
def ofFile (parentId : CatalogId) (name : Name) (r : FileRecord) : Entry :=
  let isLink := (LinkKind.ofCodes? r.userInfo.fileType r.userInfo.fileCreator).isSome
  { id := r.fileId
    parentId := parentId
    name := name
    kind := if isLink then .link else .file
    dataFork := r.dataFork.fork
    createTime := r.createDate
    modifyTime := r.contentModDate
    accessTime := r.accessDate
    fileType := r.userInfo.fileType
    fileCreator := r.userInfo.fileCreator
    inodeNumber := if isLink then r.permissions.special else 0 }

/-- The entry of a record found under this parent and name. -/
def ofRecord (parentId : CatalogId) (name : Name) : CatalogRecord → Entry
  | .folder r => ofFolder parentId name r
  | .file r => ofFile parentId name r
  | .folderThread _ | .fileThread _ | .unknown _ =>
    { id := 0, parentId, name, kind := .unknown }

/-- The kind of link that the entry's codes mark, if they mark one. -/
def linkKind? (e : Entry) : Option LinkKind := LinkKind.ofCodes? e.fileType e.fileCreator

/-- The length of the contents in bytes. -/
def size (e : Entry) : UInt64 := e.dataFork.size

/-- Whether the entry is a folder. -/
def isFolder (e : Entry) : Bool := e.kind == .folder

/-- The name as text, each lone surrogate replaced. -/
def displayName (e : Entry) : String := Text.Utf16.decode e.name

end Entry

/-- The attributes of an entry, with times in seconds since 1970. -/
structure Attributes where
  /-- The length of the contents in bytes. -/
  usedBytes : UInt64
  /-- The permission bits. -/
  mode : UInt16
  /-- When the entry was created. -/
  createTime : UInt32
  /-- When the contents last changed. -/
  modifyTime : UInt32
  /-- When the entry was last read. -/
  accessTime : UInt32
deriving DecidableEq, Repr

/-- Permission to read and to use, for the owner alone: everything on the volume is read-only. -/
def Attributes.readOnlyMode : UInt16 := 0o400 ||| 0o100

/-- The attributes of an entry. -/
def Entry.attributes (e : Entry) : Attributes where
  usedBytes := e.size
  mode := Attributes.readOnlyMode
  createTime := e.createTime.posix
  modifyTime := e.modifyTime.posix
  accessTime := e.accessTime.posix

end HfsPlus
