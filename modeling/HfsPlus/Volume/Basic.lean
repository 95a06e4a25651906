import HfsPlus.Tree.Basic
import HfsPlus.Volume.Header

/-!
# Mounting a volume

To mount a volume its header is read, from a fixed place in blocks of a fixed size, and then the
header of the catalog, in blocks of the size that the volume header gives. A volume of another file
system is recognised by its signature, and nothing else of it is read.
-/

namespace HfsPlus

/-- The block that holds the volume header when blocks have `Device.probeBlockSize` bytes. -/
def VolumeHeader.block : Nat := 2

/-- Whether allocation blocks may have this size: a power of two of at least 512. -/
def VolumeHeader.ValidBlockSize (size : UInt32) : Prop :=
  Device.probeBlockSize ≤ size ∧ size.toNat.isPowerOfTwo

instance (size : UInt32) : Decidable (VolumeHeader.ValidBlockSize size) :=
  inferInstanceAs (Decidable (_ ∧ _))

/-- A mounted volume. -/
structure Volume where
  /-- The device, with its blocks set to the size of the volume's. -/
  device : Device
  /-- The volume header. -/
  header : VolumeHeader
  /-- The tree of all files and folders. -/
  catalog : Tree

namespace Volume

/-- Opens the catalog of a volume whose header has been read. The header must be that of a volume
of this kind, and its block size a valid one, which the device then has. -/
def openCatalog (dev : Device) (header : VolumeHeader) : Run Volume := do
  if Signature.ofCode? header.signature = some .hfsPlus then
    if VolumeHeader.ValidBlockSize header.blockSize then
      let dev := dev.withBlockSize header.blockSize
      let catalog ← Tree.ofFork dev .catalogFile header.catalogFile.fork
      Run.note (.mounted header.totalBlocks header.blockSize header.freeBlocks)
      return { device := dev, header, catalog }
    else
      Run.fail (.corrupted (.blockSize header.blockSize))
  else do
    Run.note (.foreignSignature header.signature)
    Run.fail (.unsupported .notHfsPlus)

/-- Mounts the volume on a device. -/
def mount (dev : Device) : Run Volume := do
  let probe := dev.withBlockSize Device.probeBlockSize
  let header ← probe.withBlock VolumeHeader.block VolumeHeader.format.read
  openCatalog dev header

end Volume

end HfsPlus
