import HfsPlus.Volume.Basic

/-!
# Contents of entries

The bytes of a file, block numbers for those who read the device themselves, and the targets of
links.
-/

namespace HfsPlus

/-- The physical run that holds a block of the entry's contents. -/
def Entry.extent (entry : Entry) (logicalBlock : UInt32) : Run Extent :=
  entry.dataFork.resolve logicalBlock

namespace Volume

/-- Reads `len` bytes of the entry's contents from byte `pos` on. -/
def read (v : Volume) (entry : Entry) (pos len : Nat) : Run Bytes :=
  if entry.isFolder then
    Run.fail (.unsupported .folderData)
  else
    entry.dataFork.readAt v.device pos len

/-- The target of a link. A hard link's target is made from its inode number; it holds zeros, so
its length counts. -/
def readLink (v : Volume) (entry : Entry) : Run Bytes :=
  match entry.linkKind? with
  | some .hard => return hardLinkTarget entry.inodeNumber
  | some .symbolic => entry.dataFork.readWhole v.device maxLinkTarget
  | none => Run.fail (.unsupported .notALink)

/-- How many bytes of an entry's contents are read at a time when all of them are wanted. -/
def chunkSize : Nat := 65536

/-- Goes through the entry's contents from byte `pos` on, a chunk at a time. -/
def foldContents {σ : Type} (v : Volume) (entry : Entry) (step : σ → Bytes → Run σ)
    (pos : Nat) (state : σ) : Run σ :=
  if pos < entry.size.toNat then do
    let len := min (entry.size.toNat - pos) chunkSize
    let chunk ← v.read entry pos len
    let state ← step state chunk
    foldContents v entry step (pos + len) state
  else
    return state
termination_by entry.size.toNat - pos
decreasing_by
  have : 0 < chunkSize := by decide
  omega

end Volume

end HfsPlus
