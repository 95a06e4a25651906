import HfsPlus.Extent.Basic

/-!
# Forks

A fork is a string of bytes stored in extents. The volume header describes five of them and every
file record two. For reading, only the length and the extents of a fork matter.
-/

namespace HfsPlus

/-- A string of bytes on the volume. -/
structure Fork where
  /-- The number of bytes. -/
  size : UInt64
  /-- The blocks that hold them. -/
  extents : ExtentRecord
deriving DecidableEq, Repr

/-- The fork without bytes or blocks. -/
def Fork.empty : Fork := ⟨0, .empty⟩

/-- What the volume records about one fork. -/
structure ForkData where
  /-- The length of the fork's contents in bytes. -/
  logicalSize : UInt64
  /-- A hint for allocation, not used for reading. -/
  clumpSize : UInt32
  /-- The number of allocation blocks in all extents of the fork. -/
  totalBlocks : UInt32
  /-- The first eight extents. -/
  extents : ExtentRecord
deriving DecidableEq, Repr

namespace ForkData

/-- Size, clump size, block count, and the extent record. -/
def format : Format ForkData :=
  (Format.uint64.seq <| Format.uint32.seq <| Format.uint32.seq ExtentRecord.format).iso
    (fun (logicalSize, clumpSize, totalBlocks, extents) =>
      { logicalSize, clumpSize, totalBlocks, extents })
    (fun f => (f.logicalSize, f.clumpSize, f.totalBlocks, f.extents))

/-- The fork itself. -/
def fork (f : ForkData) : Fork := ⟨f.logicalSize, f.extents⟩

end ForkData

end HfsPlus
