import HfsPlus.Catalog.Id
import HfsPlus.Format.Basic
import HfsPlus.Tree.Header

/-!
# What can go wrong

An operation on a volume fails for one of a few causes, and the caller acts on the cause: another
file system may claim a volume that is not HFS Plus, an absent name is an ordinary answer, and a
damaged structure ends the walk that met it. So an `Error` is the cause; its wording is made by
`Error.message` alone.
-/

namespace HfsPlus

/-- Why the device did not hand out a block. -/
inductive Fault where
  /-- The block begins at a byte offset that does not fit 64 bits. -/
  | offsetOverflow
  /-- The image ends before the block does. -/
  | endOfImage
  /-- The device refused this block. -/
  | blockFailed (block : Nat)
deriving DecidableEq, Repr

namespace Fault

/-- The fault in words. -/
def message : Fault → String
  | .offsetOverflow => "block offset overflow"
  | .endOfImage => "failed to fill whole buffer"
  | .blockFailed block => s!"device failed at block {block}"

end Fault

/-- What was asked for that a volume of this kind, or this library, does not offer. -/
inductive Unsupported where
  /-- The volume header carries another signature. -/
  | notHfsPlus
  /-- The block lies in an extent that only the extents overflow file records. -/
  | overflowExtents
  /-- A folder has no data fork. -/
  | folderData
  /-- Only links have a target. -/
  | notALink
deriving DecidableEq, Repr

namespace Unsupported

/-- The reason in words. -/
def message : Unsupported → String
  | .notHfsPlus => "not an HFS+ volume"
  | .overflowExtents => "fork needs the extents overflow file"
  | .folderData => "directories have no data fork"
  | .notALink => "not a link"

end Unsupported

/-- How a structure on the volume breaks its own rules. -/
inductive Damage where
  /-- A structure is shorter than its fields. -/
  | truncated (field : MissingField)
  /-- The allocation block size is below 512 or no power of two. -/
  | blockSize (size : UInt32)
  /-- The size of a tree's nodes is no power of two from 512 to 32768. -/
  | nodeSize (size : UInt16)
  /-- The blocks of a fork have no bytes. -/
  | zeroBlockSize
  /-- A fork is longer than it may be. -/
  | forkTooLong (size limit : Nat)
  /-- An extent runs past the last block number. -/
  | extentOverrun
  /-- The bytes of a node end before its offset table does. -/
  | offsetTableOverrun (node : UInt32)
  /-- A record offset points into the descriptor or the offset table. -/
  | offsetOutsideRecords (node : UInt32)
  /-- The first record does not start behind the descriptor. -/
  | misplacedFirstRecord (node : UInt32)
  /-- A record was asked for that the node does not have. -/
  | recordPastCount (node : UInt32)
  /-- A record ends before it starts. -/
  | offsetsOutOfOrder (node : UInt32)
  /-- The kind of a node is none of the four known. -/
  | unknownNodeKind (node : UInt32) (code : Int8)
  /-- A record has no room for the length of its key. -/
  | missingKeyLength
  /-- A key is longer than its record. -/
  | keyOverrun
  /-- An index record does not name a node below. -/
  | missingChild
  /-- A search came upon a node that holds no keys. -/
  | unsearchableNode (kind : NodeKind) (node : UInt32)
  /-- An index node has no records. -/
  | emptyIndexNode (node : UInt32)
  /-- A search went down more levels than any tree has. -/
  | tooDeep (tree : CatalogId) (levels : Nat)
  /-- A leaf names itself as the next leaf. -/
  | selfLink (node : UInt32)
  /-- A walk along the leaves met more nodes than the tree has. -/
  | endlessSiblings (tree : CatalogId) (totalNodes : UInt32)
  /-- A leaf names a node of another kind as the next leaf. -/
  | siblingNotLeaf (node : UInt32)
  /-- A leaf names an empty leaf as the next one. -/
  | emptySibling (node : UInt32)
  /-- A catalog key has no room for its parent and the length of its name. -/
  | shortCatalogKey
  /-- The name in a catalog key is longer than the key. -/
  | nameOverrun
  /-- A catalog record has no room for its type. -/
  | missingRecordType
deriving DecidableEq, Repr

namespace Damage

/-- The damage in words. -/
def message : Damage → String
  | .truncated field =>
    "undecodable on-disk structure: " ++
      s!"Not enough data, need {8 * field.width} bits (or {field.width} bytes)"
  | .blockSize size => s!"invalid allocation block size {size}"
  | .nodeSize size => s!"invalid B-tree node size {size}"
  | .zeroBlockSize => "zero block size"
  | .forkTooLong size limit => s!"fork of {size} bytes exceeds {limit}"
  | .extentOverrun => "extent runs past the last allocation block"
  | .offsetTableOverrun node => s!"node {node}: offset table overruns the node"
  | .offsetOutsideRecords node => s!"node {node}: record offset outside the record area"
  | .misplacedFirstRecord node => s!"node {node}: record 0 does not follow the node descriptor"
  | .recordPastCount node => s!"node {node}: record index past record count"
  | .offsetsOutOfOrder node => s!"node {node}: record offsets out of order"
  | .unknownNodeKind node code => s!"node {node}: unknown kind {code}"
  | .missingKeyLength => "record too short for a key length"
  | .keyOverrun => "key length overruns its record"
  | .missingChild => "index record without a child pointer"
  | .unsearchableNode kind node => s!"search reached {kind.name} node {node}"
  | .emptyIndexNode node => s!"empty index node {node}"
  | .tooDeep tree levels => s!"B-tree {tree} deeper than {levels} levels"
  | .selfLink node => s!"leaf node {node} links to itself"
  | .endlessSiblings tree totalNodes =>
    s!"B-tree {tree}: sibling chain longer than its {totalNodes} nodes"
  | .siblingNotLeaf node => s!"sibling link to non-leaf node {node}"
  | .emptySibling node => s!"empty leaf node {node} in sibling chain"
  | .shortCatalogKey => "catalog key too short"
  | .nameOverrun => "catalog key name overruns key"
  | .missingRecordType => "catalog record without a type"

end Damage

/-- Why an operation on a volume failed. -/
inductive Error where
  /-- The volume, or what was asked of it, is not of the kind read here. -/
  | unsupported (reason : Unsupported)
  /-- The structure is sound and the entry is absent; also the end of a folder. -/
  | notFound
  /-- A structure on the volume breaks its own rules. -/
  | corrupted (damage : Damage)
  /-- The device did not hand out a block. -/
  | device (fault : Fault)
  /-- Fewer bytes were there than were asked for. -/
  | shortRead (wanted available : Nat)
  /-- More bytes were asked for than memory can hold. -/
  | outOfMemory
deriving DecidableEq, Repr

namespace Error

/-- The error in words. -/
def message : Error → String
  | .unsupported reason => s!"unsupported: {reason.message}"
  | .notFound => "not found"
  | .corrupted damage => s!"volume corrupted: {damage.message}"
  | .device fault => s!"I/O error: {fault.message}"
  | .shortRead wanted available =>
    s!"I/O error: short read: wanted {wanted} bytes, got {available}"
  | .outOfMemory => "out of memory"

end Error

/-! ## Reading structures -/

/-- The value at the front of a byte string. A structure may be followed by anything; one that
ends too early is damage. -/
def Format.read {α : Type} (f : Format α) (bs : Bytes) : Except Error α :=
  match f.decode bs with
  | .ok (a, _) => .ok a
  | .error field => .error (.corrupted (.truncated field))

end HfsPlus
