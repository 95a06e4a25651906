import HfsPlus.Format.Basic

/-!
# Extents

A fork's bytes lie in runs of allocation blocks. An `ExtentDescriptor` names one run by its first
block and its length, and a fork carries a record of eight of them. The descriptors in use come
first; one whose count is zero ends them.
-/

namespace HfsPlus

/-- A run of consecutive allocation blocks. -/
structure ExtentDescriptor where
  /-- The first block of the run. -/
  startBlock : UInt32
  /-- The number of blocks in the run; zero marks a descriptor that is not in use. -/
  blockCount : UInt32
deriving DecidableEq, Repr, Inhabited

namespace ExtentDescriptor

/-- The descriptor of no blocks at all. -/
def unused : ExtentDescriptor := ⟨0, 0⟩

/-- Two 32-bit numbers, start and count. -/
def format : Format ExtentDescriptor :=
  (Format.uint32.seq Format.uint32).iso
    (fun (startBlock, blockCount) => { startBlock, blockCount })
    (fun d => (d.startBlock, d.blockCount))

end ExtentDescriptor

/-- The number of descriptors that a fork carries itself. -/
def extentDensity : Nat := 8

/-- The extent descriptors that a fork carries itself. -/
abbrev ExtentRecord := Vector ExtentDescriptor extentDensity

namespace ExtentRecord

/-- The record of an empty fork. -/
def empty : ExtentRecord := Vector.replicate extentDensity .unused

/-- The descriptors in use: those in front of the first zero count. -/
def inUse (extents : ExtentRecord) : List ExtentDescriptor :=
  extents.toList.takeWhile (·.blockCount ≠ 0)

/-- Eight descriptors in a row. -/
def format : Format ExtentRecord := ExtentDescriptor.format.array extentDensity

end ExtentRecord

end HfsPlus
