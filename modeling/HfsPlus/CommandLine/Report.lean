import HfsPlus.Volume.Contents
import HfsPlus.Volume.Folder

/-!
# Reports

The wording of what the commands print about a volume and its entries, as lists of lines.
-/

namespace HfsPlus.Report

/-- The file system's name in reports. -/
def fileSystemName : String := "hfsplus"

/-- The extents in use, each as its first block and its length. -/
def extents (record : ExtentRecord) : String :=
  ", ".intercalate (record.inUse.map fun d => s!"{d.startBlock}+{d.blockCount}")

/-- The summary of a volume. -/
def volume (v : Volume) : List String :=
  [ s!"Driver: {fileSystemName}",
    s!"Version: {v.header.version}",
    s!"Block Size: {v.header.blockSize}",
    s!"Files: {v.header.fileCount}, Folders: {v.header.folderCount}",
    s!"Total: {v.header.totalBytes} bytes",
    s!"Free: {v.header.freeBytes} bytes",
    s!"Modified: {v.header.modifyDate.posix}",
    "Catalog File:",
    s!"\tlogical_size: {v.catalog.fork.size}",
    s!"\tnode_size: {v.catalog.nodeSize}",
    s!"\troot_node: {v.catalog.rootNode}",
    s!"\textents: {extents v.catalog.fork.extents}" ]

/-- The letter that stands for what an entry is. -/
def kindLetter (entry : Entry) : Char :=
  match entry.kind, entry.linkKind? with
  | .folder, _ => 'd'
  | .link, some .hard => 'h'
  | .link, _ => 'l'
  | .file, _ => '-'
  | .unknown, _ => '?'

/-- The line of an entry in the listing of its folder. -/
def listingLine (entry : Entry) : String :=
  let attributes := entry.attributes
  let size := Text.alignRight 12 (toString attributes.usedBytes)
  let modified := Text.alignRight 10 (toString attributes.modifyTime)
  s!"{kindLetter entry} {size} {modified} {entry.displayName}"

/-- The listing of a folder. Thread records and their like are no entries to list. -/
def listing (entries : List Entry) : List String :=
  (entries.filter (·.kind ≠ .unknown)).map listingLine

/-- The attributes of an entry. -/
def entry (e : Entry) : List String :=
  let attributes := e.attributes
  let quotedName := Text.Quoted.encode e.displayName
  let mode := String.ofList (Nat.toDigits 8 attributes.mode.toNat)
  let link := match e.linkKind? with
    | some kind => [s!"Link: {kind.name}"]
    | none => []
  [ s!"Name: {quotedName}",
    s!"ID: {e.id} (parent {e.parentId})",
    s!"Kind: {e.kind.name}",
    s!"Size: {attributes.usedBytes}",
    s!"Mode: {mode}",
    s!"Times: ctime {attributes.createTime} mtime {attributes.modifyTime} " ++
      s!"atime {attributes.accessTime}" ] ++ link

end HfsPlus.Report
