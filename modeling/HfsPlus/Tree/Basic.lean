import HfsPlus.Fork.Read
import HfsPlus.Tree.Node

/-!
# Trees

A tree file is a fork cut into nodes of equal size. Node zero holds the tree's header, from which
everything is taken that reading the tree needs: where its fork is, how large a node is, at which
node a search starts, and how many nodes there can be.
-/

namespace HfsPlus

/-- A tree file, as far as reading goes. -/
structure Tree where
  /-- The number of the file. -/
  id : CatalogId
  /-- The bytes of the file. -/
  fork : Fork
  /-- The node at which a search starts, or zero if the tree is empty. -/
  rootNode : UInt32
  /-- The size of a node in bytes. -/
  nodeSize : UInt16
  /-- The number of nodes, which bounds any walk along the leaves. -/
  totalNodes : UInt32
deriving DecidableEq, Repr

namespace Tree

/-- The smallest size that a node may have. -/
def minNodeSize : Nat := 512

/-- The largest size that a node may have. -/
def maxNodeSize : Nat := 32768

/-- Whether nodes may have this size: a power of two within the limits. -/
def ValidNodeSize (size : UInt16) : Prop :=
  size.toNat.isPowerOfTwo ∧ minNodeSize ≤ size.toNat ∧ size.toNat ≤ maxNodeSize

instance (size : UInt16) : Decidable (ValidNodeSize size) :=
  inferInstanceAs (Decidable (_ ∧ _ ∧ _))

/-- Reads the header of a tree file. It is fetched by its place behind the first node's descriptor,
because the size of a node is not known before it is read. -/
def ofFork (dev : Device) (id : CatalogId) (fork : Fork) : Run Tree := do
  let bytes ← fork.readAt dev NodeDescriptor.size TreeHeader.size
  let header ← TreeHeader.format.read bytes
  unless ValidNodeSize header.nodeSize do
    Run.fail (.corrupted (.nodeSize header.nodeSize))
  Run.note (.treeOpened id header)
  return {
    id
    fork
    rootNode := header.rootNode
    nodeSize := header.nodeSize
    totalNodes := header.totalNodes }

/-- Reads a node. -/
def readNode (dev : Device) (tree : Tree) (number : UInt32) : Run Node := do
  let size := tree.nodeSize.toNat
  let bytes ← tree.fork.readAt dev (number.toNat * size) size
  Run.note (.nodeLoaded tree.id number)
  Node.parse number bytes

end Tree

end HfsPlus
