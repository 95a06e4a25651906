import HfsPlus.Run

/-!
# Block devices

A device hands out blocks by number. The size of a block is set by whoever uses the device: the
volume header is looked for in blocks of 512 bytes, and the header itself then says how large the
volume's blocks are.

Blocks are borrowed. `Device.withBlock` is the only way to reach one, and it hands the block back
whatever comes of it, so no operation can hold two blocks or keep one.
-/

namespace HfsPlus

/-- A source of blocks. -/
structure Device where
  /-- The size of the blocks that are asked for. -/
  blockSize : UInt32
  /-- What the device has for a block of the given size and number. It may come out shorter or
  longer than a block. -/
  fetch : UInt32 → Nat → Except Fault Bytes

namespace Device

variable {α : Type}

/-- The size of the blocks in which the volume header is looked for. -/
def probeBlockSize : UInt32 := 512

/-- The same device with blocks of another size. -/
def withBlockSize (dev : Device) (blockSize : UInt32) : Device := { dev with blockSize }

/-- Borrows a block for `use`. A device that hands out less than a block is not trusted. -/
def withBlock (dev : Device) (block : Nat) (use : Bytes → Except Error α) : Run α :=
  match dev.fetch dev.blockSize block with
  | .error fault => { events := [.refused block fault], result := .error (.device fault) }
  | .ok data =>
    { events := [.fetched block data.length, .released block]
      result :=
        if data.length < dev.blockSize.toNat then
          .error (.shortRead dev.blockSize.toNat data.length)
        else
          use data }

/-- The contents of a block. -/
def block (dev : Device) (number : Nat) : Run Bytes := dev.withBlock number .ok

/-- The bytes of block `block` of an image cut into blocks of `size` bytes. A block of no bytes can
be had anywhere. -/
def imageBlock (image : Array UInt8) (size : UInt32) (block : Nat) : Except Fault Bytes :=
  let start := block * size.toNat
  let stop := start + size.toNat
  if UInt64.size ≤ start then .error .offsetOverflow
  else if size ≠ 0 ∧ image.size < stop then .error .endOfImage
  else .ok (image.extract start stop).toList

/-- A device over the bytes of a disk image. -/
def ofImage (image : Array UInt8) : Device where
  blockSize := probeBlockSize
  fetch := imageBlock image

end Device

end HfsPlus
