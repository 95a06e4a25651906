import HfsPlus.Format.Basic

/-!
# Headers inside a tree file

Every node of a tree file starts with a `NodeDescriptor`. The first record of node zero, which
follows the descriptor at once, is the `TreeHeader`: it names the root and the size of a node.
-/

namespace HfsPlus

/-- What a node's records are. -/
inductive NodeKind where
  /-- Data records. -/
  | leaf
  /-- Pointers to the nodes one level below. -/
  | index
  /-- The header record of the tree. -/
  | header
  /-- The map of the nodes in use. -/
  | map
deriving DecidableEq, Repr

namespace NodeKind

/-- The kind that a descriptor's code stands for, if it is one of the four known. -/
def ofCode? (code : Int8) : Option NodeKind :=
  if code = -1 then some .leaf
  else if code = 0 then some .index
  else if code = 1 then some .header
  else if code = 2 then some .map
  else none

/-- The kind's name. -/
def name : NodeKind → String
  | .leaf => "Leaf"
  | .index => "Index"
  | .header => "Header"
  | .map => "Map"

end NodeKind

/-- The first fourteen bytes of every node. -/
structure NodeDescriptor where
  /-- The next node of the same level, or zero. -/
  forwardLink : UInt32
  /-- The previous node of the same level, or zero. -/
  backwardLink : UInt32
  /-- The code of the node's kind; see `NodeKind.ofCode?`. -/
  kind : Int8
  /-- The level of the node, counted from the leaves. -/
  height : UInt8
  /-- The number of records in the node. -/
  recordCount : UInt16
  /-- Zero. -/
  reserved : UInt16
deriving DecidableEq, Repr

namespace NodeDescriptor

/-- The number of bytes in a descriptor, and so the offset of record zero. -/
def size : Nat := 14

open Format in
/-- The fields in their order in the node. -/
def format : Format NodeDescriptor :=
  (uint32.seq <| uint32.seq <| int8.seq <| uint8.seq <| uint16.seq uint16).iso
    (fun (forwardLink, backwardLink, kind, height, recordCount, reserved) =>
      { forwardLink, backwardLink, kind, height, recordCount, reserved })
    (fun d => (d.forwardLink, d.backwardLink, d.kind, d.height, d.recordCount, d.reserved))

end NodeDescriptor

/-- The header record of a tree. -/
structure TreeHeader where
  /-- The number of levels. -/
  treeDepth : UInt16
  /-- The node at which a search starts, or zero if the tree is empty. -/
  rootNode : UInt32
  /-- The number of records in all leaves. -/
  leafRecords : UInt32
  /-- The leftmost leaf. -/
  firstLeafNode : UInt32
  /-- The rightmost leaf. -/
  lastLeafNode : UInt32
  /-- The size of a node in bytes. -/
  nodeSize : UInt16
  /-- The longest key that the tree may hold. -/
  maxKeyLength : UInt16
  /-- The number of nodes, used or not. -/
  totalNodes : UInt32
  /-- The number of nodes not in use. -/
  freeNodes : UInt32
  /-- Zero. -/
  reserved1 : UInt16
  /-- A hint for allocation. -/
  clumpSize : UInt32
  /-- The type of the tree. -/
  treeType : UInt8
  /-- How keys compare. -/
  keyCompareType : UInt8
  /-- Flags of the tree. -/
  attributes : UInt32
  /-- Zeros. -/
  reserved3 : Vector UInt32 16
deriving DecidableEq, Repr

namespace TreeHeader

/-- The number of bytes in a header record. -/
def size : Nat := 106

open Format in
/-- The fields in their order in the record. -/
def format : Format TreeHeader :=
  (uint16.seq <| uint32.seq <| uint32.seq <| uint32.seq <| uint32.seq <| uint16.seq <|
    uint16.seq <| uint32.seq <| uint32.seq <| uint16.seq <| uint32.seq <| uint8.seq <|
    uint8.seq <| uint32.seq <| uint32.array 16).iso
    (fun (treeDepth, rootNode, leafRecords, firstLeafNode, lastLeafNode, nodeSize, maxKeyLength,
        totalNodes, freeNodes, reserved1, clumpSize, treeType, keyCompareType, attributes,
        reserved3) =>
      { treeDepth, rootNode, leafRecords, firstLeafNode, lastLeafNode, nodeSize, maxKeyLength,
        totalNodes, freeNodes, reserved1, clumpSize, treeType, keyCompareType, attributes,
        reserved3 })
    (fun h => (h.treeDepth, h.rootNode, h.leafRecords, h.firstLeafNode, h.lastLeafNode,
      h.nodeSize, h.maxKeyLength, h.totalNodes, h.freeNodes, h.reserved1, h.clumpSize,
      h.treeType, h.keyCompareType, h.attributes, h.reserved3))

end TreeHeader

end HfsPlus
