import HfsPlus.Catalog.Id
import HfsPlus.Fork.Basic
import HfsPlus.Timestamp

/-!
# The volume header

The header lies 1024 bytes into the volume, wherever the allocation blocks begin and however large
they are. It names the block size, counts what is on the volume, and describes the forks of the
five special files, the catalog among them.
-/

namespace HfsPlus

/-- The file systems that the two bytes in front of a volume header can announce. -/
inductive Signature where
  /-- The letters H and +. -/
  | hfsPlus
  /-- The letters H and X: names may be case sensitive. -/
  | hfsX
deriving DecidableEq, Repr

/-- The file system that a signature stands for, if it is one of the two known. -/
def Signature.ofCode? (code : UInt16) : Option Signature :=
  if code = 0x482B then some .hfsPlus
  else if code = 0x4858 then some .hfsX
  else none

/-- The volume header. -/
structure VolumeHeader where
  /-- The code of the file system; see `Signature.ofCode?`. -/
  signature : UInt16
  /-- The version of the volume's layout. -/
  version : UInt16
  /-- Flags of the volume as a whole. -/
  attributes : UInt32
  /-- The implementation that last wrote to the volume. -/
  lastMountedVersion : UInt32
  /-- The block that describes the journal. -/
  journalInfoBlock : UInt32
  /-- When the volume was created. -/
  createDate : Timestamp
  /-- When the volume was last written to. -/
  modifyDate : Timestamp
  /-- When the volume was last backed up. -/
  backupDate : Timestamp
  /-- When the volume was last checked. -/
  checkedDate : Timestamp
  /-- The number of files. -/
  fileCount : UInt32
  /-- The number of folders, the root not counted. -/
  folderCount : UInt32
  /-- The size of an allocation block in bytes. -/
  blockSize : UInt32
  /-- The number of allocation blocks. -/
  totalBlocks : UInt32
  /-- The number of allocation blocks that are free. -/
  freeBlocks : UInt32
  /-- Where the search for free blocks starts. -/
  nextAllocation : UInt32
  /-- The default clump size of resource forks. -/
  resourceClumpSize : UInt32
  /-- The default clump size of data forks. -/
  dataClumpSize : UInt32
  /-- The next catalog number to be given out. -/
  nextCatalogId : CatalogId
  /-- How often the volume was mounted for writing. -/
  writeCount : UInt32
  /-- The text encodings in use, one bit each. -/
  encodingsBitmap : UInt64
  /-- Eight words for the desktop's use. -/
  finderInfo : Vector UInt32 8
  /-- The fork of the allocation file. -/
  allocationFile : ForkData
  /-- The fork of the extents overflow file. -/
  extentsFile : ForkData
  /-- The fork of the catalog. -/
  catalogFile : ForkData
  /-- The fork of the attributes file. -/
  attributesFile : ForkData
  /-- The fork of the startup file. -/
  startupFile : ForkData
deriving DecidableEq, Repr

namespace VolumeHeader

/-- The number of bytes in a volume header. -/
def size : Nat := 512

open Format in
/-- The fields in their order on the volume. -/
def format : Format VolumeHeader :=
  (uint16.seq <| uint16.seq <| uint32.seq <| uint32.seq <| uint32.seq <|
    uint32.seq <| uint32.seq <| uint32.seq <| uint32.seq <|
    uint32.seq <| uint32.seq <|
    uint32.seq <| uint32.seq <| uint32.seq <|
    uint32.seq <| uint32.seq <| uint32.seq <| uint32.seq <|
    uint32.seq <| uint64.seq <| (uint32.array 8).seq <|
    ForkData.format.seq <| ForkData.format.seq <| ForkData.format.seq <|
    ForkData.format.seq ForkData.format).iso
    (fun (signature, version, attributes, lastMountedVersion, journalInfoBlock,
        createDate, modifyDate, backupDate, checkedDate, fileCount, folderCount,
        blockSize, totalBlocks, freeBlocks, nextAllocation, resourceClumpSize, dataClumpSize,
        nextCatalogId, writeCount, encodingsBitmap, finderInfo,
        allocationFile, extentsFile, catalogFile, attributesFile, startupFile) =>
      { signature, version, attributes, lastMountedVersion, journalInfoBlock,
        createDate, modifyDate, backupDate, checkedDate, fileCount, folderCount,
        blockSize, totalBlocks, freeBlocks, nextAllocation, resourceClumpSize, dataClumpSize,
        nextCatalogId, writeCount, encodingsBitmap, finderInfo,
        allocationFile, extentsFile, catalogFile, attributesFile, startupFile })
    (fun h => (h.signature, h.version, h.attributes, h.lastMountedVersion, h.journalInfoBlock,
      h.createDate, h.modifyDate, h.backupDate, h.checkedDate, h.fileCount, h.folderCount,
      h.blockSize, h.totalBlocks, h.freeBlocks, h.nextAllocation, h.resourceClumpSize,
      h.dataClumpSize, h.nextCatalogId, h.writeCount, h.encodingsBitmap, h.finderInfo,
      h.allocationFile, h.extentsFile, h.catalogFile, h.attributesFile, h.startupFile))

/-- The size of the whole volume in bytes. -/
def totalBytes (h : VolumeHeader) : Nat := h.blockSize.toNat * h.totalBlocks.toNat

/-- The number of bytes in free blocks. -/
def freeBytes (h : VolumeHeader) : Nat := h.blockSize.toNat * h.freeBlocks.toNat

end VolumeHeader

end HfsPlus
