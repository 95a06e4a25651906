import HfsPlus.Proofs.Format.RoundTrip
import HfsPlus.Proofs.Tree.WellFormed

/-!
# Nodes as they are packed

Whoever writes a node packs its records behind the descriptor, lets free space
follow, and writes the table of offsets backward from the end, one entry for
each record and one for free space. All of it comes back when such a node is
read, of any size that a tree may have (`NodeContents.comes_back`).

An entry of the table has as many entries behind it as its index says
(`bytes_eq_entry`), so its place is told from the end of the node, and neither
the number of the records nor their lengths are needed to find it.
-/

namespace HfsPlus

/-- The byte that marks a kind. -/
def NodeKind.byte : NodeKind → UInt8
  | .leaf => 0xFF
  | .index => 0
  | .header => 1
  | .map => 2

theorem NodeKind.ofCode?_byte (kind : NodeKind) : ofCode? kind.byte.toInt8 = some kind := by
  cases kind <;> decide

/-- What goes into a node. -/
structure NodeContents where
  /-- The next node of the same level, or zero. -/
  forwardLink : UInt32
  /-- The previous node of the same level, or zero. -/
  backwardLink : UInt32
  /-- What the records are. -/
  kind : NodeKind
  /-- The level of the node. -/
  height : UInt8
  /-- What is in the place of the reserved field. -/
  reserved : UInt16
  /-- The records, in order. -/
  records : List Bytes
  /-- What is in free space. -/
  free : Bytes

namespace NodeContents

variable (c : NodeContents) {index : Nat}

/-- The fourteen bytes in front of the records. -/
def front : Bytes :=
  BigEndian.ofNat 4 c.forwardLink.toNat ++ BigEndian.ofNat 4 c.backwardLink.toNat
    ++ [c.kind.byte, c.height] ++ BigEndian.ofNat 2 c.records.length
    ++ BigEndian.ofNat 2 c.reserved.toNat

/-- Where a record starts; or free space, behind the last record. -/
def start (index : Nat) : Nat := NodeDescriptor.size + (c.records.take index).flatten.length

/-- The last so many entries of the table of offsets. The last of all is record zero's. -/
def table : (entries : Nat) → Bytes
  | 0 => []
  | index + 1 => BigEndian.ofNat 2 (c.start index) ++ table index

/-- The node. -/
def bytes : Bytes :=
  c.front ++ c.records.flatten ++ c.free ++ c.table (c.records.length + 1)

theorem length_front : c.front.length = NodeDescriptor.size := by
  simp [front, NodeDescriptor.size]

theorem length_table (entries : Nat) : (c.table entries).length = 2 * entries := by
  induction entries with
  | zero => rfl
  | succ index ih =>
    rw [table, List.length_append, BigEndian.length_ofNat, ih]
    omega

theorem length_bytes : c.bytes.length = NodeDescriptor.size + c.records.flatten.length +
    c.free.length + 2 * (c.records.length + 1) := by
  rw [bytes, List.length_append, List.length_append, List.length_append,
    length_front, length_table]

theorem start_le (index : Nat) :
    c.start index ≤ NodeDescriptor.size + c.records.flatten.length := by
  have hparts : (c.records.take index ++ c.records.drop index).flatten.length =
      c.records.flatten.length := by
    rw [List.take_append_drop]
  rw [List.flatten_append, List.length_append] at hparts
  rw [start]
  omega

theorem start_succ (h : index < c.records.length) :
    c.start (index + 1) = c.start index + c.records[index].length := by
  rw [start, start, List.take_succ_eq_append_getElem h, List.flatten_append, List.length_append,
    List.flatten_singleton, Nat.add_assoc]

/-! ## The parts of a packed node -/

theorem exists_table_eq : ∀ {entries : Nat}, index < entries →
    ∃ before, c.table entries = before ++ BigEndian.ofNat 2 (c.start index) ++ c.table index := by
  intro entries
  induction entries with
  | zero =>
    intro h
    cases h
  | succ last ih =>
    intro h
    rcases Nat.lt_or_eq_of_le (Nat.le_of_lt_succ h) with hlt | rfl
    · obtain ⟨before, hbefore⟩ := ih hlt
      refine ⟨BigEndian.ofNat 2 (c.start last) ++ before, ?_⟩
      rw [table, hbefore, List.append_assoc, List.append_assoc, List.append_assoc]
    · exact ⟨[], rfl⟩

/-- The entry of a record has the entries of all records in front of that record
behind it. -/
theorem bytes_eq_entry (h : index ≤ c.records.length) : ∃ before,
    NodeDescriptor.size + c.records.flatten.length ≤ before.length ∧
    c.bytes = before ++ BigEndian.ofNat 2 (c.start index) ++ c.table index := by
  obtain ⟨before, hbefore⟩ := c.exists_table_eq (Nat.lt_succ_of_le h)
  refine ⟨c.front ++ c.records.flatten ++ c.free ++ before, ?_, ?_⟩
  · rw [List.length_append, List.length_append, List.length_append, length_front]
    omega
  · rw [bytes, hbefore]
    simp only [List.append_assoc]

theorem bytes_eq_record (h : index < c.records.length) : ∃ before behind,
    before.length = c.start index ∧ c.bytes = before ++ c.records[index] ++ behind := by
  have hrecords : c.records.flatten = (c.records.take index).flatten ++ c.records[index] ++
      (c.records.drop (index + 1)).flatten := by
    rw [← List.flatten_concat, ← List.take_succ_eq_append_getElem h, ← List.flatten_append,
      List.take_append_drop]
  refine ⟨c.front ++ (c.records.take index).flatten,
    (c.records.drop (index + 1)).flatten ++ c.free ++ c.table (c.records.length + 1), ?_, ?_⟩
  · rw [List.length_append, length_front, start]
  · rw [bytes, hrecords]
    simp only [List.append_assoc]

end NodeContents

/-! ## Reading what stands in its place -/

namespace Node

variable {node : Node} {index found : Nat} {before behind bytes : Bytes}

theorem extract_of_eq (h : node.data.toList = before ++ bytes ++ behind) :
    (node.data.extract before.length (before.length + bytes.length)).toList = bytes := by
  rw [Array.toList_extract, h, List.extract_eq_take_drop, Nat.add_sub_cancel_left,
    List.append_assoc, List.drop_left, List.take_left]

theorem offset_of_entry (h : node.data.toList = before ++ BigEndian.ofNat 2 found ++ behind)
    (hbehind : behind.length = 2 * index) (hword : found < UInt16.size)
    (hfrom : NodeDescriptor.size ≤ found) (hto : found ≤ before.length) :
    node.offset index = .ok found := by
  have hsize : node.data.size = before.length + 2 + 2 * index := by
    rw [← Array.length_toList, h, List.length_append, List.length_append,
      BigEndian.length_ofNat, hbehind]
  have hslot : node.data.size - 2 * (index + 1) = before.length := by omega
  have hentry := extract_of_eq h
  rw [BigEndian.length_ofNat] at hentry
  simp only [offset]
  rw [if_neg (by omega), hslot, hentry, BigEndian.toNat_ofNat, Nat.mod_eq_of_lt hword,
    if_pos ⟨hfrom, hto⟩]

theorem record_of_offsets (h : node.data.toList = before ++ bytes ++ behind)
    (hindex : index < node.recordCount) (hstart : node.offset index = .ok before.length)
    (hstop : node.offset (index + 1) = .ok (before.length + bytes.length)) :
    node.record index = .ok bytes := by
  rw [record, if_neg (Nat.not_le.mpr hindex), hstart, hstop]
  simp only [bind, Except.bind, pure, Except.pure]
  rw [if_neg (by omega), extract_of_eq h]

theorem record_of_le (h : node.recordCount ≤ index) :
    node.record index = .error (.corrupted (.recordPastCount node.number)) := by
  rw [record, if_pos h]
  rfl

end Node

namespace NodeContents

variable (c : NodeContents) {number : UInt32} {index : Nat}

/-- The descriptor in front of the records. It counts them. -/
def descriptor : NodeDescriptor where
  forwardLink := c.forwardLink
  backwardLink := c.backwardLink
  kind := c.kind.byte.toInt8
  height := c.height
  recordCount := .ofNat c.records.length
  reserved := c.reserved

/-- The node that the bytes are. -/
def node (number : UInt32) : Node where
  number := number
  descriptor := c.descriptor
  data := c.bytes.toArray

theorem length_records_lt (h : c.bytes.length ≤ Tree.maxNodeSize) :
    c.records.length < UInt16.size := by
  have hmax : Tree.maxNodeSize < UInt16.size := by decide
  have hlength := c.length_bytes
  omega

theorem recordCount_node (h : c.bytes.length ≤ Tree.maxNodeSize) (number : UInt32) :
    (c.node number).recordCount = c.records.length :=
  UInt16.toNat_ofNat_of_lt' (c.length_records_lt h)

theorem offset_node (h : c.bytes.length ≤ Tree.maxNodeSize) (hindex : index ≤ c.records.length)
    (number : UInt32) : (c.node number).offset index = .ok (c.start index) := by
  obtain ⟨before, hbefore, hbytes⟩ := c.bytes_eq_entry hindex
  have hstart := c.start_le index
  have hmax : Tree.maxNodeSize < UInt16.size := by decide
  have hlength := c.length_bytes
  exact Node.offset_of_entry hbytes (c.length_table index) (by omega) (Nat.le_add_right _ _)
    (by omega)

theorem record_node (h : c.bytes.length ≤ Tree.maxNodeSize) (hindex : index < c.records.length)
    (number : UInt32) : (c.node number).record index = .ok c.records[index] := by
  obtain ⟨before, behind, hbefore, hbytes⟩ := c.bytes_eq_record hindex
  refine Node.record_of_offsets hbytes ?_ ?_ ?_
  · rw [c.recordCount_node h]
    exact hindex
  · rw [hbefore]
    exact c.offset_node h (Nat.le_of_lt hindex) number
  · rw [hbefore, ← c.start_succ hindex]
    exact c.offset_node h hindex number

/-- Read one after another, the records are those that went in. -/
theorem map_keyedRecord_node (h : c.bytes.length ≤ Tree.maxNodeSize) (number : UInt32) :
    (c.node number).hits.map Hit.keyedRecord = c.records.map KeyedRecord.parse := by
  refine List.ext_getElem ?_ fun index hhits hrecords => ?_
  · rw [List.length_map, List.length_map, Node.length_hits, c.recordCount_node h]
  · rw [List.length_map] at hrecords
    simp only [Node.hits, List.getElem_map, List.getElem_range]
    rw [Hit.keyedRecord, Node.keyedRecord, c.record_node h hrecords]
    rfl

theorem encode_descriptor (h : c.records.length < UInt16.size) :
    NodeDescriptor.format.encode c.descriptor = c.front := by
  have hcount : (UInt16.ofNat c.records.length).toBitVec.toNat = c.records.length :=
    UInt16.toNat_ofNat_of_lt' h
  have hkind : BigEndian.ofNat 1 c.kind.byte.toInt8.toBitVec.toNat = [c.kind.byte] := by
    cases c.kind <;> rfl
  have hheight : BigEndian.ofNat 1 c.height.toBitVec.toNat = [c.height] := by
    rw [BigEndian.ofNat, UInt8.toNat_toBitVec, UInt8.ofNat_toNat]
    rfl
  simp only [NodeDescriptor.format, Format.iso, Format.seq, Format.uint32, Format.uint16,
    Format.uint8, Format.int8, Format.word, descriptor, hcount, hkind, hheight, front]
  simp

theorem parse_bytes (h : c.bytes.length ≤ Tree.maxNodeSize) (number : UInt32) :
    Node.parse number c.bytes = .ok (c.node number) := by
  have hdescriptor : NodeDescriptor.format.read c.bytes = .ok c.descriptor := by
    rw [bytes, ← c.encode_descriptor (c.length_records_lt h), List.append_assoc,
      List.append_assoc]
    exact Format.read_encode _ _
  have hfirst : (c.node number).offset 0 = .ok NodeDescriptor.size :=
    c.offset_node h (Nat.zero_le _) number
  rw [node] at hfirst ⊢
  simp only [Node.parse, hdescriptor, bind, Except.bind, hfirst]
  rfl

/-- A node of any contents that fit into it is accepted, whatever is in free space. Its
kind, its link, and the number of its records are those that went into it, and so are
the records, at their indices; there are no others. -/
theorem comes_back (c : NodeContents) (number : UInt32) {size : Nat}
    (hmax : size ≤ Tree.maxNodeSize)
    (hsize : NodeDescriptor.size + c.records.flatten.length + c.free.length +
      2 * (c.records.length + 1) = size) :
    c.bytes.length = size ∧
    ∃ node, Node.parse number c.bytes = .ok node ∧
      node.number = number ∧
      node.kind = .ok c.kind ∧
      node.forwardLink = c.forwardLink ∧
      node.recordCount = c.records.length ∧
      (∀ index, ∀ h : index < c.records.length, node.record index = .ok c.records[index]) ∧
      ∀ index, c.records.length ≤ index →
        node.record index = .error (.corrupted (.recordPastCount number)) := by
  have hlength : c.bytes.length = size := c.length_bytes.trans hsize
  have hfits : c.bytes.length ≤ Tree.maxNodeSize := hlength ▸ hmax
  have hkind : (c.node number).kind = .ok c.kind := by
    simp only [Node.kind, node, descriptor, NodeKind.ofCode?_byte]
  refine ⟨hlength, c.node number, c.parse_bytes hfits number, rfl, hkind, rfl,
    c.recordCount_node hfits number, fun index h => c.record_node hfits h number, ?_⟩
  intro index h
  rw [← c.recordCount_node hfits number] at h
  exact Node.record_of_le h

/-! ### A sample

An index node without room to spare: two records, one of them empty, and no free space. -/

def fullContents : NodeContents where
  forwardLink := 7
  backwardLink := 0xFFFFFFFF
  kind := .index
  height := 2
  reserved := 0xFFFF
  records := [[], [0, 2, 0xAA, 0xBB, 1]]
  free := []

theorem full_comes_back :
    fullContents.bytes.length = 25 ∧
    ∃ node, Node.parse 3 fullContents.bytes = .ok node ∧ node.kind = .ok .index ∧
      node.forwardLink = 7 ∧ node.record 0 = .ok [] ∧
      node.record 1 = .ok [0, 2, 0xAA, 0xBB, 1] ∧
      node.record 2 = .error (.corrupted (.recordPastCount 3)) := by
  obtain ⟨hlength, node, hparse, -, hkind, hlink, -, hrecords, hnone⟩ :=
    @comes_back fullContents 3 25 (by decide) (by decide)
  exact ⟨hlength, node, hparse, hkind, hlink, hrecords 0 (by decide), hrecords 1 (by decide),
    hnone 2 (by decide)⟩

end NodeContents

end HfsPlus
