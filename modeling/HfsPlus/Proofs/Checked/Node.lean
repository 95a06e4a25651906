import HfsPlus.Proofs.Checked.Fork
import HfsPlus.Proofs.Format.Exact
import HfsPlus.Proofs.Tree.Node

/-!
# Taking nodes apart, checked

The offsets in a node are sixteen bits each and may say anything, and the count
of its records may be more than the node has bytes. Three checks keep every access
in the node: the slot of an offset lies in the table behind the descriptor, the
offset itself does not lie behind its slot, and of two offsets the second is not
the smaller (`record_eq`). An index has the next one in its word, because it is
below a count that is.
-/

namespace HfsPlus

/-! ## The size of a node -/

section Sizes

variable {node : Node}

theorem Node.le_size_of_offset {index found : Nat} (h : node.offset index = .ok found) :
    found ≤ node.data.size := by
  simp only [offset] at h
  split at h
  · cases h
  · split at h
    · next hfound =>
      cases h
      omega
    · cases h

theorem Node.data_of_parse {number : UInt32} {data : Bytes} (h : parse number data = .ok node) :
    node.data = data.toArray := by
  obtain ⟨descriptor, -, h⟩ := exists_of_bind_eq_ok h
  obtain ⟨first, -, h⟩ := exists_of_bind_eq_ok h
  split at h
  · cases h
  · cases h
    rfl

theorem Tree.length_lt_of_readAt {dev : Device} {tree : Tree} {pos : Nat} {bytes : Bytes}
    (h : (tree.fork.readAt dev pos tree.nodeSize.toNat).result = .ok bytes) :
    bytes.length < UInt64.size :=
  Nat.lt_of_le_of_lt (Fork.length_le_of_readAt h)
    (Nat.lt_trans tree.nodeSize.toNat_lt (by decide))

theorem Tree.size_lt_of_readNode {dev : Device} {tree : Tree} {number : UInt32}
    (h : (tree.readNode dev number).result = .ok node) : node.data.size < UInt64.size := by
  rw [result_readNode] at h
  obtain ⟨bytes, hbytes, h⟩ := exists_of_bind_eq_ok h
  rw [Node.data_of_parse h, List.size_toArray]
  exact length_lt_of_readAt hbytes

end Sizes

namespace Checked

/-! ## Records -/

/-- Entry `index` of the offset table. -/
def offset (node : Node) (index : Nat) : Checked Nat := do
  let entries ← add UInt64.size index 1
  let fromEnd ← mul UInt64.size 2 entries
  -- A table that is longer than the node is an error of the volume.
  match sub node.data.size fromEnd with
  | .error _ => Run.fail (.corrupted (.offsetTableOverrun node.number))
  | .ok slot =>
    if slot < NodeDescriptor.size then
      Run.fail (.corrupted (.offsetTableOverrun node.number))
    else
      match ← word? 2 node.data.toList slot with
      | none => Run.fail (.corrupted (.offsetTableOverrun node.number))
      | some offset =>
        if offset < NodeDescriptor.size ∨ slot < offset then
          Run.fail (.corrupted (.offsetOutsideRecords node.number))
        else
          return offset

/-- The bytes of record `index`. -/
def record (node : Node) (index : Nat) : Checked Bytes :=
  if node.recordCount ≤ index then
    Run.fail (.corrupted (.recordPastCount node.number))
  else do
    let start ← offset node index
    let next ← add UInt16.size index 1
    let stop ← offset node next
    if stop < start then
      Run.fail (.corrupted (.offsetsOutOfOrder node.number))
    else
      slice node.data.toList start stop

/-- Takes a record apart. The key is as long as the word in front of it says. -/
def parseKeyed (record : Bytes) : Checked KeyedRecord := do
  match ← word? 2 record 0 with
  | none => Run.fail (.corrupted .missingKeyLength)
  | some keyLength =>
    let stop ← add UInt64.size 2 keyLength
    if record.length < stop then
      Run.fail (.corrupted .keyOverrun)
    else
      return {
        key := ← slice record 2 stop
        data := ← slice record stop record.length }

/-- Record `index`, taken apart into key and data. -/
def keyedRecord (node : Node) (index : Nat) : Checked KeyedRecord := do
  parseKeyed (← record node index)

/-- The number of the node below, in the first four bytes behind a key. -/
def child (r : KeyedRecord) : Checked UInt32 := do
  match ← word? 4 r.data 0 with
  | none => Run.fail (.corrupted .missingChild)
  | some number => return .ofNat number

/-! ## Nodes -/

/-- Reads a descriptor off the bytes of a node. The first record begins right behind it. -/
def parseNode (number : UInt32) (data : Bytes) : Checked Node := do
  let descriptor ← NodeDescriptor.format.read data
  let node : Node := { number, descriptor, data := data.toArray }
  let first ← offset node 0
  if first ≠ NodeDescriptor.size then
    Run.fail (.corrupted (.misplacedFirstRecord number))
  else
    return node

/-- Loads node `number`, which lies behind as many others of its size. -/
def readNode (dev : Device) (tree : Tree) (number : UInt32) : Checked Node := do
  let size := tree.nodeSize.toNat
  let pos ← mul UInt64.size number.toNat size
  let data ← readAt dev tree.fork pos (List.replicate size 0)
  Run.note (.nodeLoaded tree.id number)
  parseNode number data

section Equations

variable {node : Node} {index : Nat}

theorem word?_zero {width : Nat} (h : width < UInt64.size) (bs : Bytes) :
    word? width bs 0 = .ok (
      if width ≤ bs.length then some (BigEndian.toNat (bs.take width)) else none) := by
  rw [word?_eq_ok (by omega), Nat.zero_add, List.extract_eq_take_drop, List.drop_zero, Nat.sub_zero]

theorem offset_eq (hdata : node.data.size < UInt64.size) (hindex : index < UInt16.size) :
    offset node index = liftM (node.offset index) := by
  have hsize : UInt16.size * 4 < UInt64.size := by decide
  rw [offset, Node.offset, add_eq_ok (by omega), liftM_ok_bind, mul_eq_ok (by omega),
    liftM_ok_bind]
  simp only []
  by_cases htable : node.data.size < NodeDescriptor.size + 2 * (index + 1)
  · rw [if_pos htable, sub]
    by_cases hle : 2 * (index + 1) ≤ node.data.size
    · rw [if_pos hle]
      simp only []
      rw [if_pos (by omega)]
      rfl
    · rw [if_neg hle]
      rfl
  · generalize hslot : node.data.size - 2 * (index + 1) = slot
    have hstop : slot + 2 ≤ node.data.toList.length := by
      rw [Array.length_toList]
      omega
    rw [if_neg htable, sub_eq_ok (by omega), hslot]
    simp only []
    rw [if_neg (by omega), word?_eq_ok (by omega), liftM_ok_bind, if_pos hstop,
      ← Array.toList_extract]
    simp only []
    generalize BigEndian.toNat (node.data.extract slot (slot + 2)).toList = found
    by_cases hfound : NodeDescriptor.size ≤ found ∧ found ≤ slot
    · rw [if_pos hfound, if_neg (by omega)]
      rfl
    · rw [if_neg hfound, if_pos (by omega)]
      rfl

theorem record_eq (hdata : node.data.size < UInt64.size) (index : Nat) :
    record node index = liftM (node.record index) := by
  have hcount : node.recordCount < UInt16.size := node.descriptor.recordCount.toNat_lt
  rw [record, Node.record]
  by_cases hindex : node.recordCount ≤ index
  · rw [if_pos hindex, if_pos hindex]
    rfl
  · rw [if_neg hindex, if_neg hindex, offset_eq hdata (by omega)]
    refine except_bind_eq_liftM fun start _ => ?_
    rw [add_eq_ok (by omega), liftM_ok_bind, offset_eq hdata (by omega)]
    refine except_bind_eq_liftM fun stop hstop => ?_
    by_cases horder : stop < start
    · rw [if_pos horder, if_pos horder]
      rfl
    · have hle := Node.le_size_of_offset hstop
      rw [if_neg horder, if_neg horder,
        slice_eq_ok (Nat.not_lt.mp horder) (by rw [Array.length_toList]; exact hle),
        ← Array.toList_extract]
      rfl

theorem parseKeyed_eq (bs : Bytes) : parseKeyed bs = liftM (KeyedRecord.parse bs) := by
  rw [parseKeyed, KeyedRecord.parse, word?_zero (by decide), liftM_ok_bind, Format.Word.decode_eq (f := Format.uint16)]
  by_cases hlength : 2 ≤ bs.length
  · have hword := BigEndian.toNat_take_lt 2 bs
    rw [if_pos hlength, if_pos hlength]
    generalize BigEndian.toNat (bs.take 2) = keyLength at hword
    have hkey : (UInt16.ofNat keyLength).toNat = keyLength := UInt16.toNat_ofNat_of_lt' hword
    have hstop : 2 + keyLength < UInt64.size :=
      Nat.lt_trans (Nat.add_lt_add_left hword 2) (by decide)
    simp only [hkey]
    rw [add_eq_ok hstop, liftM_ok_bind, List.length_take, List.length_drop]
    by_cases hover : bs.length < 2 + keyLength
    · rw [if_pos hover, if_pos (by omega)]
      rfl
    · rw [if_neg hover, if_neg (by omega), slice_eq_ok (by omega) (by omega), liftM_ok_bind,
        slice_eq_ok (by omega) (Nat.le_refl _), liftM_ok_bind, List.extract_eq_take_drop,
        List.extract_eq_take_drop, Nat.add_sub_cancel_left, List.drop_drop,
        List.take_of_length_le (Nat.le_of_eq (List.length_drop))]
      rfl
  · rw [if_neg hlength, if_neg hlength]
    rfl

theorem keyedRecord_eq (hdata : node.data.size < UInt64.size) (index : Nat) :
    keyedRecord node index = liftM (node.keyedRecord index) := by
  rw [keyedRecord, Node.keyedRecord, record_eq hdata]
  exact except_bind_eq_liftM fun bs _ => parseKeyed_eq bs

theorem child_eq (r : KeyedRecord) : child r = liftM r.child := by
  rw [child, KeyedRecord.child, word?_zero (by decide), liftM_ok_bind, Format.Word.decode_eq (f := Format.uint32)]
  by_cases hlength : 4 ≤ r.data.length
  · rw [if_pos hlength, if_pos hlength]
    rfl
  · rw [if_neg hlength, if_neg hlength]
    rfl

theorem parseNode_eq (number : UInt32) {data : Bytes} (hdata : data.length < UInt64.size) :
    parseNode number data = liftM (Node.parse number data) := by
  rw [parseNode, Node.parse]
  refine except_bind_eq_liftM fun descriptor _ => ?_
  simp only []
  rw [offset_eq (by simpa using hdata) (by decide)]
  refine except_bind_eq_liftM fun first _ => ?_
  split <;> rfl

theorem readNode_eq (dev : Device) (tree : Tree) (number : UInt32) :
    readNode dev tree number = liftM (tree.readNode dev number) := by
  have hpos : number.toNat * tree.nodeSize.toNat < UInt64.size :=
    mul_lt_size number.toNat_lt (Nat.lt_trans tree.nodeSize.toNat_lt (by decide))
  simp only [readNode, Tree.readNode]
  rw [mul_eq_ok hpos, liftM_ok_bind, readAt_eq dev tree.fork hpos, List.length_replicate]
  refine bind_eq_liftM fun data hdata => ?_
  rw [parseNode_eq number (Tree.length_lt_of_readAt hdata)]
  rfl

end Equations

end Checked

end HfsPlus
