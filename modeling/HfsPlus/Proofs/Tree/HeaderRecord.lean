import HfsPlus.Proofs.Fork.Cut
import HfsPlus.Proofs.Tree.Layout
import HfsPlus.Proofs.Tree.Offsets

/-!
# The header is the first record of node zero

The size of a node stands in node zero, so a tree is opened before any of its
nodes can be loaded, with a read that takes the header from its place behind the
descriptor. Nothing has been looked at then of the descriptor or of the table of
offsets. The node reader comes to the same bytes the other way round: it loads all
of node zero, perhaps over other blocks, and asks the table where record zero is.

That the two agree has two reasons. A node is accepted only if its first entry says
that record zero follows the descriptor, and a read inside another read of the fork
answers with a part of its bytes (`eq_take_of_readAt`), however the blocks cut
either of them. So what record zero begins with is what the tree was opened with,
as soon as the record is long enough for a header (`opened_with_first_record`).
-/

namespace HfsPlus

variable {dev : Device} {fork : Fork}

/-- A read inside another read answers with a part of its bytes. -/
theorem Fork.eq_take_of_readAt {pos len skip count : Nat} {bytes inner : Bytes}
    (h : (fork.readAt dev pos len).result = .ok bytes)
    (hinner : (fork.readAt dev (pos + skip) count).result = .ok inner)
    (hinside : skip + count ≤ len) : inner = (bytes.drop skip).take count := by
  obtain ⟨-, hbytes⟩ := bytes_of_readAt h
  obtain ⟨hlength, hplaces⟩ := bytes_of_readAt hinner
  ext1 i
  rw [List.getElem?_take, List.getElem?_drop]
  by_cases hi : i < count
  · rw [if_pos hi, ← hplaces i hi, ← hbytes (skip + i) (by omega), Nat.add_assoc]
  · rw [if_neg hi, List.getElem?_eq_none_iff]
    omega

/-- Record zero of a node that was accepted is what follows the descriptor. -/
theorem Node.first_record_of_parse {node : Node} {number : UInt32} {data bytes : Bytes}
    (hnode : parse number data = .ok node) (h : node.record 0 = .ok bytes) :
    NodeDescriptor.size + bytes.length ≤ data.length ∧
      bytes = (data.drop NodeDescriptor.size).take bytes.length := by
  obtain ⟨hfirst, -⟩ := first_entry_of_parse hnode
  obtain ⟨-, -, hfrom, hto, hbytes⟩ := record_eq_ok_iff.mp h
  rw [data_of_parse hnode, List.size_toArray] at hto
  rw [hfirst] at hbytes hfrom
  rw [data_of_parse hnode, List.toList_toArray, List.extract_eq_take_drop] at hbytes
  have hlength : bytes.length = node.entry (0 + 1) - NodeDescriptor.size := by
    rw [hbytes, List.length_take, List.length_drop]
    omega
  exact ⟨by omega, by rw [hlength]; exact hbytes⟩

namespace Tree

variable {id : CatalogId} {tree : Tree} {node : Node} {bytes : Bytes}

theorem exists_header_of_ofFork (h : (ofFork dev id fork).result = .ok tree) :
    ∃ bytes header,
      (fork.readAt dev NodeDescriptor.size TreeHeader.size).result = .ok bytes ∧
      TreeHeader.format.read bytes = .ok header ∧
      tree = {
        id
        fork
        rootNode := header.rootNode
        nodeSize := header.nodeSize
        totalNodes := header.totalNodes } := by
  rw [result_ofFork] at h
  obtain ⟨bytes, hbytes, h⟩ := exists_of_bind_eq_ok h
  obtain ⟨header, hheader, h⟩ := exists_of_bind_eq_ok h
  split at h
  · cases h
    exact ⟨bytes, header, hbytes, hheader, rfl⟩
  · cases h

/-- If a tree has been opened, and record zero of node zero can be read and is not too short
to be a header, then the header that it is names the root, the size of a node and the
number of nodes that the tree was opened with. -/
theorem opened_with_first_record (hopen : (ofFork dev id fork).result = .ok tree)
    (hnode : (tree.readNode dev 0).result = .ok node)
    (hrecord : node.record 0 = .ok bytes) (hlong : TreeHeader.size ≤ bytes.length) :
    ∃ header, TreeHeader.format.read bytes = .ok header ∧
      header.rootNode = tree.rootNode ∧
      header.nodeSize = tree.nodeSize ∧
      header.totalNodes = tree.totalNodes := by
  obtain ⟨front, header, hfront, hheader, rfl⟩ := exists_header_of_ofFork hopen
  rw [result_readNode] at hnode
  obtain ⟨data, hdata, hparse⟩ := exists_of_bind_eq_ok hnode
  obtain ⟨hroom, hbytes⟩ := Node.first_record_of_parse hparse hrecord
  obtain ⟨hlength, -⟩ := Fork.bytes_of_readAt hdata
  have hinside : NodeDescriptor.size + TreeHeader.size ≤ header.nodeSize.toNat := by
    have hlength : data.length = header.nodeSize.toNat := hlength
    omega
  -- Node zero starts where the fork does, so the header was read from inside of it.
  have hsame : front = bytes.take TreeHeader.size := by
    rw [hbytes, List.take_take, Nat.min_eq_left hlong]
    have hstart : (0 : UInt32).toNat * header.nodeSize.toNat = 0 := Nat.zero_mul _
    rw [hstart] at hdata
    exact Fork.eq_take_of_readAt hdata ((Nat.zero_add _).symm ▸ hfront) hinside
  refine ⟨header, ?_, rfl, rfl, rfl⟩
  rw [← Format.read_take TreeHeader.totalWidth_widths hlong, ← hsame]
  exact hheader

end Tree

/-! ### A sample

A node of 512 bytes in blocks of 96, which lie in four places of the device. -/

/-- A device on which the blocks of a string lie in other places. Behind each of them
it hands out some bytes more. -/
def Device.scattered (size : UInt32) (place : Nat → Nat) (content : Bytes) : Device where
  blockSize := size
  fetch _ block := .ok ((content.drop (place block * size.toNat)).take size.toNat ++
    List.replicate size.toNat 0)

theorem Fork.stores_scattered {size : UInt32} {place : Nat → Nat} {content : Bytes}
    (hpos : 0 < size.toNat) (hlength : fork.size.toNat = content.length)
    (hplace : ∀ block, block * size.toNat < content.length →
      ∃ found, fork.locate block = .ok found ∧ place found = block) :
    fork.Stores (.scattered size place content) content where
  blockSize_pos := hpos
  size_eq := hlength
  byte?_eq := by
    intro pos h
    have hstart := Nat.div_add_mod' pos size.toNat
    have hmod := Nat.mod_lt pos hpos
    obtain ⟨found, hfound, hblock⟩ := hplace (pos / size.toNat) (by omega)
    have hread : (fork.readBlock (.scattered size place content) (pos / size.toNat)).result =
        .ok ((content.drop (pos / size.toNat * size.toNat)).take size.toNat ++
          List.replicate size.toNat 0) := by
      rw [result_readBlock, hfound, ← hblock]
      have hlong : ¬ ((content.drop (place found * size.toNat)).take size.toNat ++
          List.replicate size.toNat 0).length < size.toNat := by
        rw [List.length_append, List.length_replicate]
        omega
      exact if_neg hlong
    rw [byte?_of_readBlock hread]
    show _[pos % size.toNat]? = _
    have hhere : pos % size.toNat < ((content.drop (pos / size.toNat * size.toNat)).take
        size.toNat).length := by
      rw [List.length_take, List.length_drop]
      omega
    rw [List.getElem?_append_left hhere, List.getElem?_take, if_pos hmod, List.getElem?_drop,
      hstart]

namespace Tree

def fiveNodes : TreeHeader where
  treeDepth := 2
  rootNode := 3
  leafRecords := 6
  firstLeafNode := 1
  lastLeafNode := 2
  nodeSize := 512
  maxKeyLength := 516
  totalNodes := 5
  freeNodes := 1
  reserved1 := 0
  clumpSize := 2560
  treeType := 0
  keyCompareType := 0xCF
  attributes := 6
  reserved3 := .replicate 16 0

def headerContents : NodeContents where
  forwardLink := 0
  backwardLink := 0
  kind := .header
  height := 0
  reserved := 0
  records := [TreeHeader.format.encode fiveNodes]
  free := List.replicate 388 0

theorem length_fiveNodes : (TreeHeader.format.encode fiveNodes).length = TreeHeader.size := by
  decide

theorem length_headerContents : headerContents.bytes.length = 512 := by
  rw [NodeContents.length_bytes]
  simp only [headerContents, List.flatten_singleton, List.length_singleton, List.length_replicate,
    length_fiveNodes]
  rfl

def cutFork : Fork where
  size := 512
  extents :=
    #v[⟨2, 2⟩, ⟨5, 1⟩, ⟨0, 2⟩, ⟨4, 1⟩, .unused, .unused, .unused, .unused]

/-- The block of the fork that lies in a block of the device. -/
def cutPlace : Nat → Nat
  | 0 => 3
  | 1 => 4
  | 2 => 0
  | 3 => 1
  | 4 => 5
  | _ => 2

def cutDevice : Device := .scattered 96 cutPlace headerContents.bytes

def cutTree : Tree where
  id := .catalogFile
  fork := cutFork
  rootNode := 3
  nodeSize := 512
  totalNodes := 5

theorem cutFork_stores : cutFork.Stores cutDevice headerContents.bytes := by
  have hplaces : ∀ block < 6, cutPlace <$> cutFork.locate block = .ok block := by decide
  refine Fork.stores_scattered (by decide) (length_headerContents ▸ rfl) fun block h => ?_
  have hsize : (96 : UInt32).toNat = 96 := rfl
  rw [length_headerContents, hsize] at h
  exact map_eq_ok_iff.mp (hplaces block (by omega))

theorem cutFork_read {pos len : Nat} (h : pos + len ≤ 512) :
    (cutFork.readAt cutDevice pos len).result =
      .ok ((headerContents.bytes.drop pos).take len) := by
  rw [Fork.result_readAt_of_stores cutFork_stores, length_headerContents, if_neg (by omega)]

theorem read_fiveNodes :
    TreeHeader.format.read (TreeHeader.format.encode fiveNodes) = .ok fiveNodes := by
  decide +kernel

theorem cutFork_opened : (ofFork cutDevice .catalogFile cutFork).result = .ok cutTree := by
  have hfirst : 0 < headerContents.records.length := by decide
  obtain ⟨before, behind, hbefore, hbytes⟩ := headerContents.bytes_eq_record hfirst
  have hheader : (headerContents.bytes.drop NodeDescriptor.size).take TreeHeader.size =
      TreeHeader.format.encode fiveNodes := by
    rw [hbytes, List.append_assoc]
    exact (congrArg (List.take _) (List.drop_left' hbefore)).trans
      (List.take_left' length_fiveNodes)
  rw [result_ofFork, cutFork_read (by decide), hheader]
  simp only [Except.bind, read_fiveNodes]
  rfl

/-- The table of offsets is five blocks away from the header that it leads to. -/
theorem cutTree_opened_with :
    (ofFork cutDevice .catalogFile cutFork).result = .ok cutTree ∧
    (cutTree.readNode cutDevice 0).result = .ok (headerContents.node 0) ∧
    (headerContents.node 0).record 0 = .ok (TreeHeader.format.encode fiveNodes) ∧
    ∃ header, TreeHeader.format.read (TreeHeader.format.encode fiveNodes) = .ok header ∧
      header.rootNode = 3 ∧ header.nodeSize = 512 ∧ header.totalNodes = 5 := by
  have hfits : headerContents.bytes.length ≤ maxNodeSize := length_headerContents ▸ by decide
  have hall : (headerContents.bytes.drop 0).take 512 = headerContents.bytes :=
    List.take_of_length_le (Nat.le_of_eq length_headerContents)
  have hread : (cutTree.fork.readAt cutDevice ((0 : UInt32).toNat * cutTree.nodeSize.toNat)
      cutTree.nodeSize.toNat).result = .ok headerContents.bytes :=
    (cutFork_read (by decide)).trans (congrArg Except.ok hall)
  have hnode : (cutTree.readNode cutDevice 0).result = .ok (headerContents.node 0) := by
    rw [result_readNode, hread]
    simp only [Except.bind]
    exact headerContents.parse_bytes hfits 0
  have hrecord : (headerContents.node 0).record 0 = .ok (TreeHeader.format.encode fiveNodes) :=
    headerContents.record_node hfits (by decide) 0
  exact ⟨cutFork_opened, hnode, hrecord,
    opened_with_first_record cutFork_opened hnode hrecord (Nat.le_of_eq length_fiveNodes.symm)⟩

end Tree

end HfsPlus
