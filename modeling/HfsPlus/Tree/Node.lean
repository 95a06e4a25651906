import HfsPlus.Tree.Record

/-!
# Nodes

A node is a block of bytes with a descriptor in front, records packed behind it, and at the end a
table of 16-bit offsets that grows backward: the last two bytes say where record zero starts, the
two before where record one starts, and the entry after the last record's says where free space
begins. A record runs from its own offset to the next one.

Nothing in a node is trusted. Each offset is checked against the descriptor on one side and its own
place in the table on the other, whenever it is used.
-/

namespace HfsPlus

/-- A node of a tree. -/
structure Node where
  /-- The node's number in its tree. -/
  number : UInt32
  /-- The descriptor in front of the records. -/
  descriptor : NodeDescriptor
  /-- The whole node, descriptor included. -/
  data : Array UInt8
deriving DecidableEq, Repr

namespace Node

/-- What the node's records are. -/
def kind (node : Node) : Except Error NodeKind :=
  match NodeKind.ofCode? node.descriptor.kind with
  | some kind => .ok kind
  | none => .error (.corrupted (.unknownNodeKind node.number node.descriptor.kind))

/-- The number of records. -/
def recordCount (node : Node) : Nat := node.descriptor.recordCount.toNat

/-- The next node of the same level, or zero. -/
def forwardLink (node : Node) : UInt32 := node.descriptor.forwardLink

/-- Entry `index` of the offset table. -/
def offset (node : Node) (index : Nat) : Except Error Nat :=
  let fromEnd := 2 * (index + 1)
  if node.data.size < NodeDescriptor.size + fromEnd then
    .error (.corrupted (.offsetTableOverrun node.number))
  else
    let slot := node.data.size - fromEnd
    let offset := BigEndian.toNat (node.data.extract slot (slot + 2)).toList
    if NodeDescriptor.size ≤ offset ∧ offset ≤ slot then
      .ok offset
    else
      .error (.corrupted (.offsetOutsideRecords node.number))

/-- The bytes of record `index`. -/
def record (node : Node) (index : Nat) : Except Error Bytes := do
  if node.recordCount ≤ index then
    throw (.corrupted (.recordPastCount node.number))
  let start ← node.offset index
  let stop ← node.offset (index + 1)
  if stop < start then
    throw (.corrupted (.offsetsOutOfOrder node.number))
  return (node.data.extract start stop).toList

/-- Record `index`, taken apart into key and data. -/
def keyedRecord (node : Node) (index : Nat) : Except Error KeyedRecord := do
  KeyedRecord.parse (← node.record index)

/-- The node that these bytes are, provided that record zero follows the descriptor. -/
def parse (number : UInt32) (data : Bytes) : Except Error Node := do
  let descriptor ← NodeDescriptor.format.read data
  let node : Node := { number, descriptor, data := data.toArray }
  let first ← node.offset 0
  if first ≠ NodeDescriptor.size then
    throw (.corrupted (.misplacedFirstRecord number))
  return node

end Node

end HfsPlus
