import HfsPlus.Device.Basic
import HfsPlus.Extent.Resolve
import HfsPlus.Fork.Basic

/-!
# Reading a fork

A range of a fork is read block by block: the block that holds the first byte is resolved and
borrowed from the device, its part of the range is copied, and the rest of the range follows. A
block that the device pads past its size is cut to its size. Asking for bytes past the end of the
fork is a short read, and then no block is touched.
-/

namespace HfsPlus.Fork

/-- Resolves a block, with a warning if it lies past the extents at hand. -/
def resolve (fork : Fork) (logicalBlock : UInt32) : Run Extent :=
  match fork.extents.resolve logicalBlock with
  | .error (.unsupported .overflowExtents) => do
    Run.note (.beyondExtentRecord logicalBlock)
    Run.fail (.unsupported .overflowExtents)
  | result => Run.ofExcept result

/-- Reads `len` bytes from byte `pos` on, whether or not the fork is that long. A block number
that does not fit 32 bits is no block of any fork. -/
def readBlocks (dev : Device) (fork : Fork) (hsize : 0 < dev.blockSize.toNat)
    (pos len : Nat) : Run Bytes :=
  if len = 0 then
    return []
  else do
    let blockSize := dev.blockSize.toNat
    let logicalBlock := pos / blockSize
    if UInt32.size ≤ logicalBlock then
      Run.fail .notFound
    else
      let extent ← fork.resolve (UInt32.ofNat logicalBlock)
      let within := pos % blockSize
      let count := min (blockSize - within) len
      let piece ← dev.withBlock extent.physicalStart.toNat fun data =>
        .ok ((data.drop within).take count)
      (piece ++ ·) <$> readBlocks dev fork hsize (pos + count) (len - count)
termination_by len
decreasing_by
  have := Nat.mod_lt pos hsize
  omega

/-- Reads `len` bytes from byte `pos` on. -/
def readAt (dev : Device) (fork : Fork) (pos len : Nat) : Run Bytes :=
  let available := fork.size.toNat - pos
  if available < len then
    Run.fail (.shortRead len available)
  else if hsize : 0 < dev.blockSize.toNat then
    readBlocks dev fork hsize pos len
  else
    Run.fail (.corrupted .zeroBlockSize)

/-- The number of bytes that no buffer can exceed. -/
def maxBuffer : Nat := UInt64.size / 2 - 1

/-- Reads the whole fork, provided that it has at most `limit` bytes. -/
def readWhole (dev : Device) (fork : Fork) (limit : Nat) : Run Bytes :=
  let size := fork.size.toNat
  if limit < size then
    Run.fail (.corrupted (.forkTooLong size limit))
  else if maxBuffer < size then
    Run.fail .outOfMemory
  else
    readAt dev fork 0 size

end HfsPlus.Fork
