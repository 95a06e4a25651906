import HfsPlus.Error
import HfsPlus.Extent.Basic

/-!
# From logical to physical blocks

The blocks of a fork are numbered from zero through its extents in order. `ExtentRecord.resolve`
finds the run that holds a block, and what is left of that run from the block on. A fork with more
than eight extents has the others in a file of their own, which is not read here; a block past
eight full descriptors may be there.
-/

namespace HfsPlus

/-- A run of physical blocks behind a run of logical ones. -/
structure Extent where
  /-- The first logical block. -/
  logicalStart : UInt32
  /-- The physical block that holds it. -/
  physicalStart : UInt32
  /-- The number of blocks, this one included, up to the end of the run. -/
  count : UInt32
deriving DecidableEq, Repr

namespace ExtentRecord

/-- Finds the run that holds the block `ahead` blocks into these descriptors. -/
def resolveFrom (logicalBlock : UInt32) :
    List ExtentDescriptor → (ahead : UInt32) → Except Error Extent
  | [], _ => .error (.unsupported .overflowExtents)
  | d :: rest, ahead =>
    if d.blockCount = 0 then .error .notFound
    else if ahead < d.blockCount then
      if d.startBlock.toNat + ahead.toNat < UInt32.size then
        .ok {
          logicalStart := logicalBlock
          physicalStart := d.startBlock + ahead
          count := d.blockCount - ahead }
      else
        .error (.corrupted .extentOverrun)
    else
      resolveFrom logicalBlock rest (ahead - d.blockCount)

/-- Finds the physical run that holds a logical block. -/
def resolve (extents : ExtentRecord) (logicalBlock : UInt32) : Except Error Extent :=
  resolveFrom logicalBlock extents.toList logicalBlock

end ExtentRecord

end HfsPlus
