import HfsPlus.Catalog.File
import HfsPlus.Catalog.Folder
import HfsPlus.Catalog.Thread
import HfsPlus.Proofs.Format.Exact
import HfsPlus.Volume.Header

/-!
# The structures of a volume

Fifteen kinds of structure are read off a volume. For each the numbers that a
value holds are listed here in the order of its fields (`fields`), and their
widths (`widths`), which say how long it is (`size`). Its format is exact for
them (`Structure.decode_exact`): the structure is decoded from these numbers,
from no other bytes, and from all that are not too short.

Only a thread record has a size that depends on its bytes, because the name at
its end lies behind its length.
-/

namespace HfsPlus

open Format (Exact)

open FieldValue (uint8 uint16 uint32 uint64 int8 int16 int32)

/-! ## Blocks and forks -/

/-- The first block, and how many there are. -/
def ExtentDescriptor.fields (d : ExtentDescriptor) : List FieldValue :=
  [uint32 d.startBlock, uint32 d.blockCount]

/-- An extent takes up 8 bytes. -/
def ExtentDescriptor.widths : List Nat := [4, 4]

instance : Exact ExtentDescriptor.format ExtentDescriptor.fields
    fun _ => ExtentDescriptor.widths :=
  .iso (fun _ => rfl) (fun _ => rfl) (fun _ => rfl) (fun _ => rfl)

/-- The extents in order, used or not. -/
def ExtentRecord.fields (extents : ExtentRecord) : List FieldValue :=
  extents.toList.flatMap ExtentDescriptor.fields

/-- Eight extents take up 64 bytes. -/
def ExtentRecord.widths : List Nat :=
  (List.replicate extentDensity ExtentDescriptor.widths).flatten

instance : Exact ExtentRecord.format ExtentRecord.fields fun _ => ExtentRecord.widths :=
  inferInstanceAs (Exact (ExtentDescriptor.format.array extentDensity) _ _)

/-- Sizes in front, extents behind. -/
def ForkData.fields (data : ForkData) : List FieldValue :=
  [uint64 data.logicalSize, uint32 data.clumpSize, uint32 data.totalBlocks] ++
    data.extents.fields

/-- A fork takes up 80 bytes. -/
def ForkData.widths : List Nat := [8, 4, 4] ++ ExtentRecord.widths

instance : Exact ForkData.format ForkData.fields fun _ => ForkData.widths :=
  .iso (fun _ => rfl) (fun _ => rfl) (fun _ => rfl) (fun _ => rfl)

/-! ## Headers -/

/-- The volume as a whole, and then the five forks that are no files of a folder. -/
def VolumeHeader.fields (h : VolumeHeader) : List FieldValue :=
  [uint16 h.signature, uint16 h.version, uint32 h.attributes, uint32 h.lastMountedVersion,
    uint32 h.journalInfoBlock, uint32 h.createDate, uint32 h.modifyDate, uint32 h.backupDate,
    uint32 h.checkedDate, uint32 h.fileCount, uint32 h.folderCount, uint32 h.blockSize,
    uint32 h.totalBlocks, uint32 h.freeBlocks, uint32 h.nextAllocation,
    uint32 h.resourceClumpSize, uint32 h.dataClumpSize, uint32 h.nextCatalogId,
    uint32 h.writeCount, uint64 h.encodingsBitmap] ++
  h.finderInfo.toList.map uint32 ++
  h.allocationFile.fields ++ h.extentsFile.fields ++ h.catalogFile.fields ++
  h.attributesFile.fields ++ h.startupFile.fields

/-- A volume header takes up 512 bytes. -/
def VolumeHeader.widths : List Nat :=
  [2, 2, 4, 4, 4, 4, 4, 4, 4, 4, 4, 4, 4, 4, 4, 4, 4, 4, 4, 8] ++ List.replicate 8 4 ++
  ForkData.widths ++ ForkData.widths ++ ForkData.widths ++ ForkData.widths ++ ForkData.widths

theorem VolumeHeader.totalWidth_widths : totalWidth widths = size := rfl

instance : Exact VolumeHeader.format VolumeHeader.fields fun _ => VolumeHeader.widths :=
  .iso (fun _ => rfl) (fun _ => rfl)
    (fun h => by simp [VolumeHeader.fields, List.map_eq_flatMap]) (fun _ => rfl)

/-- Two links, and what kind of node it is. -/
def NodeDescriptor.fields (d : NodeDescriptor) : List FieldValue :=
  [uint32 d.forwardLink, uint32 d.backwardLink, int8 d.kind, uint8 d.height,
    uint16 d.recordCount, uint16 d.reserved]

/-- A node descriptor takes up 14 bytes. -/
def NodeDescriptor.widths : List Nat := [4, 4, 1, 1, 2, 2]

instance : Exact NodeDescriptor.format NodeDescriptor.fields fun _ => NodeDescriptor.widths :=
  .iso (fun _ => rfl) (fun _ => rfl) (fun _ => rfl) (fun _ => rfl)

/-- The tree as a whole, with 16 numbers that are kept free. -/
def TreeHeader.fields (h : TreeHeader) : List FieldValue :=
  [uint16 h.treeDepth, uint32 h.rootNode, uint32 h.leafRecords, uint32 h.firstLeafNode,
    uint32 h.lastLeafNode, uint16 h.nodeSize, uint16 h.maxKeyLength, uint32 h.totalNodes,
    uint32 h.freeNodes, uint16 h.reserved1, uint32 h.clumpSize, uint8 h.treeType,
    uint8 h.keyCompareType, uint32 h.attributes] ++
  h.reserved3.toList.map uint32

/-- A tree header takes up 106 bytes. -/
def TreeHeader.widths : List Nat :=
  [2, 4, 4, 4, 4, 2, 2, 4, 4, 2, 4, 1, 1, 4] ++ List.replicate 16 4

theorem TreeHeader.totalWidth_widths : totalWidth widths = size := rfl

instance : Exact TreeHeader.format TreeHeader.fields fun _ => TreeHeader.widths :=
  .iso (fun _ => rfl) (fun _ => rfl)
    (fun h => by simp [TreeHeader.fields, List.map_eq_flatMap]) (fun _ => rfl)

/-! ## Parts of catalog records -/

/-- Owners, flags and mode. The last number is the node of a hard link. -/
def Permissions.fields (p : Permissions) : List FieldValue :=
  [uint32 p.ownerId, uint32 p.groupId, uint8 p.adminFlags, uint8 p.ownerFlags,
    uint16 p.fileMode, uint32 p.special]

/-- Permissions take up 16 bytes. -/
def Permissions.widths : List Nat := [4, 4, 1, 1, 2, 4]

instance : Exact Permissions.format Permissions.fields fun _ => Permissions.widths :=
  .iso (fun _ => rfl) (fun _ => rfl) (fun _ => rfl) (fun _ => rfl)

/-- Down, then across. -/
def Point.fields (p : Point) : List FieldValue := [int16 p.v, int16 p.h]

/-- A point takes up 4 bytes. -/
def Point.widths : List Nat := [2, 2]

instance : Exact Point.format Point.fields fun _ => Point.widths :=
  .iso (fun _ => rfl) (fun _ => rfl) (fun _ => rfl) (fun _ => rfl)

/-- Four edges, from the top against the clock. -/
def Rect.fields (r : Rect) : List FieldValue :=
  [int16 r.top, int16 r.left, int16 r.bottom, int16 r.right]

/-- A rectangle takes up 8 bytes. -/
def Rect.widths : List Nat := [2, 2, 2, 2]

instance : Exact Rect.format Rect.fields fun _ => Rect.widths :=
  .iso (fun _ => rfl) (fun _ => rfl) (fun _ => rfl) (fun _ => rfl)

/-- Type and creator, and how the file is shown. -/
def FileInfo.fields (i : FileInfo) : List FieldValue :=
  [uint32 i.fileType, uint32 i.fileCreator, uint16 i.finderFlags] ++ i.location.fields ++
    [uint16 i.reserved]

/-- The information on a file takes up 16 bytes. -/
def FileInfo.widths : List Nat := [4, 4, 2] ++ Point.widths ++ [2]

instance : Exact FileInfo.format FileInfo.fields fun _ => FileInfo.widths :=
  .iso (fun _ => rfl) (fun _ => rfl) (fun _ => rfl) (fun _ => rfl)

/-- Four numbers that are kept free, and more on how the file is shown. -/
def ExtendedFileInfo.fields (i : ExtendedFileInfo) : List FieldValue :=
  i.reserved1.toList.map int16 ++
    [uint16 i.extendedFinderFlags, int16 i.reserved2, int32 i.putAwayFolderId]

/-- The further information on a file takes up 16 bytes. -/
def ExtendedFileInfo.widths : List Nat := List.replicate 4 2 ++ [2, 2, 4]

instance : Exact ExtendedFileInfo.format ExtendedFileInfo.fields
    fun _ => ExtendedFileInfo.widths :=
  .iso (fun _ => rfl) (fun _ => rfl)
    (fun i => by simp [ExtendedFileInfo.fields, List.map_eq_flatMap]) (fun _ => rfl)

/-- The window, and how the folder is shown. -/
def FolderInfo.fields (i : FolderInfo) : List FieldValue :=
  i.windowBounds.fields ++ [uint16 i.finderFlags] ++ i.location.fields ++ [uint16 i.reserved]

/-- The information on a folder takes up 16 bytes. -/
def FolderInfo.widths : List Nat := Rect.widths ++ [2] ++ Point.widths ++ [2]

instance : Exact FolderInfo.format FolderInfo.fields fun _ => FolderInfo.widths :=
  .iso (fun _ => rfl) (fun _ => rfl) (fun _ => rfl) (fun _ => rfl)

/-- How far the window is scrolled, and more on how the folder is shown. -/
def ExtendedFolderInfo.fields (i : ExtendedFolderInfo) : List FieldValue :=
  i.scrollPosition.fields ++ [int32 i.reserved1, uint16 i.extendedFinderFlags,
    int16 i.reserved2, int32 i.putAwayFolderId]

/-- The further information on a folder takes up 16 bytes. -/
def ExtendedFolderInfo.widths : List Nat := Point.widths ++ [4, 2, 2, 4]

instance : Exact ExtendedFolderInfo.format ExtendedFolderInfo.fields
    fun _ => ExtendedFolderInfo.widths :=
  .iso (fun _ => rfl) (fun _ => rfl) (fun _ => rfl) (fun _ => rfl)

/-! ## Catalog records -/

/-- Its type is the first number, as of every record of the catalog. -/
def FolderRecord.fields (r : FolderRecord) : List FieldValue :=
  [uint16 r.recordType, uint16 r.flags, uint32 r.valence, uint32 r.folderId,
    uint32 r.createDate, uint32 r.contentModDate, uint32 r.attributeModDate,
    uint32 r.accessDate, uint32 r.backupDate] ++
  r.permissions.fields ++ r.userInfo.fields ++ r.finderInfo.fields ++
  [uint32 r.textEncoding, uint32 r.reserved]

/-- A folder record takes up 88 bytes. -/
def FolderRecord.widths : List Nat :=
  [2, 2, 4, 4, 4, 4, 4, 4, 4] ++ Permissions.widths ++ FolderInfo.widths ++
  ExtendedFolderInfo.widths ++ [4, 4]

instance : Exact FolderRecord.format FolderRecord.fields fun _ => FolderRecord.widths :=
  .iso (fun _ => rfl) (fun _ => rfl) (fun r => by simp [FolderRecord.fields]) (fun _ => rfl)

/-- As a folder up to the encoding, and then the two forks. -/
def FileRecord.fields (r : FileRecord) : List FieldValue :=
  [uint16 r.recordType, uint16 r.flags, uint32 r.reserved1, uint32 r.fileId,
    uint32 r.createDate, uint32 r.contentModDate, uint32 r.attributeModDate,
    uint32 r.accessDate, uint32 r.backupDate] ++
  r.permissions.fields ++ r.userInfo.fields ++ r.finderInfo.fields ++
  [uint32 r.textEncoding, uint32 r.reserved2] ++ r.dataFork.fields ++ r.resourceFork.fields

/-- A file record takes up 248 bytes. -/
def FileRecord.widths : List Nat :=
  [2, 2, 4, 4, 4, 4, 4, 4, 4] ++ Permissions.widths ++ FileInfo.widths ++
  ExtendedFileInfo.widths ++ [4, 4] ++ ForkData.widths ++ ForkData.widths

instance : Exact FileRecord.format FileRecord.fields fun _ => FileRecord.widths :=
  .iso (fun _ => rfl) (fun _ => rfl) (fun r => by simp [FileRecord.fields]) (fun _ => rfl)

/-- The number of units in the name is a field of its own, in front of the units. -/
def ThreadRecord.fields (r : ThreadRecord) : List FieldValue :=
  [uint16 r.recordType, int16 r.reserved, uint32 r.parentId, uint16 (.ofNat r.name.length)] ++
    r.name.map uint16

/-- As many units follow as the number in bytes 8 and 9 says. -/
def ThreadRecord.widths (bs : Bytes) : List Nat :=
  [2, 2, 4, 2] ++ List.replicate (BigEndian.field bs 8 2) 2

instance : Exact ThreadRecord.format ThreadRecord.fields ThreadRecord.widths :=
  .iso (fun _ => rfl) (fun _ => rfl)
    (fun r => by simp [ThreadRecord.fields, List.map_eq_flatMap])
    (fun bs => by simp [ThreadRecord.widths, BigEndian.field_drop])

/-! ## All of them -/

/-- The kinds of structure that lie on a volume. -/
inductive Structure where
  | extentDescriptor
  | forkData
  | volumeHeader
  | nodeDescriptor
  | treeHeader
  | permissions
  | point
  | rect
  | fileInfo
  | extendedFileInfo
  | folderInfo
  | extendedFolderInfo
  | folderRecord
  | fileRecord
  | threadRecord

namespace Structure

/-- The values of this kind. -/
def Value : Structure → Type
  | .extentDescriptor => ExtentDescriptor
  | .forkData => ForkData
  | .volumeHeader => VolumeHeader
  | .nodeDescriptor => NodeDescriptor
  | .treeHeader => TreeHeader
  | .permissions => Permissions
  | .point => Point
  | .rect => Rect
  | .fileInfo => FileInfo
  | .extendedFileInfo => ExtendedFileInfo
  | .folderInfo => FolderInfo
  | .extendedFolderInfo => ExtendedFolderInfo
  | .folderRecord => FolderRecord
  | .fileRecord => FileRecord
  | .threadRecord => ThreadRecord

/-- How structures of this kind lie on the volume. -/
def format : (s : Structure) → Format s.Value
  | .extentDescriptor => ExtentDescriptor.format
  | .forkData => ForkData.format
  | .volumeHeader => VolumeHeader.format
  | .nodeDescriptor => NodeDescriptor.format
  | .treeHeader => TreeHeader.format
  | .permissions => Permissions.format
  | .point => Point.format
  | .rect => Rect.format
  | .fileInfo => FileInfo.format
  | .extendedFileInfo => ExtendedFileInfo.format
  | .folderInfo => FolderInfo.format
  | .extendedFolderInfo => ExtendedFolderInfo.format
  | .folderRecord => FolderRecord.format
  | .fileRecord => FileRecord.format
  | .threadRecord => ThreadRecord.format

/-- The numbers in a value, in the order of its fields. -/
def fields : (s : Structure) → s.Value → List FieldValue
  | .extentDescriptor => ExtentDescriptor.fields
  | .forkData => ForkData.fields
  | .volumeHeader => VolumeHeader.fields
  | .nodeDescriptor => NodeDescriptor.fields
  | .treeHeader => TreeHeader.fields
  | .permissions => Permissions.fields
  | .point => Point.fields
  | .rect => Rect.fields
  | .fileInfo => FileInfo.fields
  | .extendedFileInfo => ExtendedFileInfo.fields
  | .folderInfo => FolderInfo.fields
  | .extendedFolderInfo => ExtendedFolderInfo.fields
  | .folderRecord => FolderRecord.fields
  | .fileRecord => FileRecord.fields
  | .threadRecord => ThreadRecord.fields

/-- How wide the fields are of a structure that begins these bytes. -/
def widths : Structure → Bytes → List Nat
  | .extentDescriptor, _ => ExtentDescriptor.widths
  | .forkData, _ => ForkData.widths
  | .volumeHeader, _ => VolumeHeader.widths
  | .nodeDescriptor, _ => NodeDescriptor.widths
  | .treeHeader, _ => TreeHeader.widths
  | .permissions, _ => Permissions.widths
  | .point, _ => Point.widths
  | .rect, _ => Rect.widths
  | .fileInfo, _ => FileInfo.widths
  | .extendedFileInfo, _ => ExtendedFileInfo.widths
  | .folderInfo, _ => FolderInfo.widths
  | .extendedFolderInfo, _ => ExtendedFolderInfo.widths
  | .folderRecord, _ => FolderRecord.widths
  | .fileRecord, _ => FileRecord.widths
  | .threadRecord, bs => ThreadRecord.widths bs

/-- How long a structure is that begins these bytes. -/
def size : Structure → Bytes → Nat
  | .extentDescriptor, _ => 8
  | .forkData, _ => 80
  | .volumeHeader, _ => VolumeHeader.size
  | .nodeDescriptor, _ => NodeDescriptor.size
  | .treeHeader, _ => TreeHeader.size
  | .permissions, _ => 16
  | .point, _ => 4
  | .rect, _ => 8
  | .fileInfo, _ => 16
  | .extendedFileInfo, _ => 16
  | .folderInfo, _ => 16
  | .extendedFolderInfo, _ => 16
  | .folderRecord, _ => 88
  | .fileRecord, _ => 248
  | .threadRecord, bs => 10 + 2 * BigEndian.field bs 8 2

instance : (s : Structure) → Exact s.format s.fields s.widths
  | .extentDescriptor => inferInstanceAs (Exact ExtentDescriptor.format _ _)
  | .forkData => inferInstanceAs (Exact ForkData.format _ _)
  | .volumeHeader => inferInstanceAs (Exact VolumeHeader.format _ _)
  | .nodeDescriptor => inferInstanceAs (Exact NodeDescriptor.format _ _)
  | .treeHeader => inferInstanceAs (Exact TreeHeader.format _ _)
  | .permissions => inferInstanceAs (Exact Permissions.format _ _)
  | .point => inferInstanceAs (Exact Point.format _ _)
  | .rect => inferInstanceAs (Exact Rect.format _ _)
  | .fileInfo => inferInstanceAs (Exact FileInfo.format _ _)
  | .extendedFileInfo => inferInstanceAs (Exact ExtendedFileInfo.format _ _)
  | .folderInfo => inferInstanceAs (Exact FolderInfo.format _ _)
  | .extendedFolderInfo => inferInstanceAs (Exact ExtendedFolderInfo.format _ _)
  | .folderRecord => inferInstanceAs (Exact FolderRecord.format _ _)
  | .fileRecord => inferInstanceAs (Exact FileRecord.format _ _)
  | .threadRecord => inferInstanceAs (Exact ThreadRecord.format _ _)

theorem totalWidth_widths (s : Structure) (bs : Bytes) :
    totalWidth (s.widths bs) = s.size bs := by
  cases s with
  | threadRecord =>
    show totalWidth (ThreadRecord.widths bs) = 10 + 2 * BigEndian.field bs 8 2
    simp [ThreadRecord.widths]
    omega
  | volumeHeader => exact VolumeHeader.totalWidth_widths
  | _ => rfl

/-- Decoding undoes writing and nothing else, for every kind of structure. It fails on
bytes that are too short and on no others, and the error names the first field that does
not fit. -/
theorem decode_exact (s : Structure) :
    (∀ bs rest v, s.format.decode bs = .ok (v, rest) ↔
      bs = FieldValue.bytes (s.fields v) ++ rest) ∧
    (∀ v rest, (s.fields v).map FieldValue.width =
      s.widths (FieldValue.bytes (s.fields v) ++ rest)) ∧
    (∀ bs, (∃ e, s.format.read bs = .error e) ↔ bs.length < s.size bs) ∧
    ∀ bs e, s.format.read bs = .error e ↔ ∃ width,
      FirstMissing (s.widths bs) bs.length width ∧ e = .corrupted (.truncated ⟨width⟩) ∧
      e.message = "volume corrupted: undecodable on-disk structure: " ++
        s!"Not enough data, need {8 * width} bits (or {width} bytes)" := by
  refine ⟨fun bs rest v => Exact.decode_eq_ok_iff, Exact.map_width s.format, ?_, ?_⟩
  · intro bs
    rw [← totalWidth_widths, ← exists_firstMissing_iff]
    constructor
    · rintro ⟨e, he⟩
      obtain ⟨width, hwidth, -⟩ := Format.read_eq_error_iff.mp he
      exact ⟨width, hwidth⟩
    · rintro ⟨width, hwidth⟩
      exact ⟨_, Format.read_eq_error_iff.mpr ⟨width, hwidth, rfl⟩⟩
  · intro bs e
    rw [Format.read_eq_error_iff]
    refine exists_congr fun width => and_congr_right fun _ => ⟨?_, And.left⟩
    rintro rfl
    exact ⟨rfl, rfl⟩

end Structure

/-- The thread of a name of two units is cut in the second. -/
example : ThreadRecord.format.read [0, 4, 0, 0, 0, 0, 0, 2, 0, 2, 0, 0x68, 0] =
    .error (.corrupted (.truncated ⟨2⟩)) := by
  decide

end HfsPlus
