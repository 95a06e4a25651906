import HfsPlus.Proofs.Tree.Packed
import HfsPlus.Proofs.Volume.Enumerate
import HfsPlus.Proofs.Volume.Mount

/-!
# Volumes as they are packed

The smallest catalog is a node with the tree's header and one leaf. Whoever packs
a volume with such a catalog into an image leaves room in front, writes the volume
header and the two nodes, each into a block of its own, and lets the blocks of
other files follow. Such an image is mounted from the header and the first of
the nodes (`VolumeContents.mountsTo`), and its catalog has the rows that went into
the leaf and no others (`VolumeContents.hasRows`), so what is found on it is told
by these rows.
-/

namespace HfsPlus

namespace Device

variable {front back : Bytes} {size : UInt32} {block : Nat}

/-- The blocks of an image are pieces of the bytes that it begins with. -/
theorem imageBlock_append (h : block * size.toNat + size.toNat ≤ front.length)
    (hsmall : front.length < UInt64.size) :
    imageBlock (front ++ back).toArray size block =
      .ok ((front.drop (block * size.toNat)).take size.toNat) := by
  have hin : ¬ UInt64.size ≤ block * size.toNat := by omega
  have hend : ¬ (size ≠ 0 ∧ (front ++ back).toArray.size <
      block * size.toNat + size.toNat) := by
    rw [List.size_toArray, List.length_append]
    omega
  simp only [imageBlock]
  rw [if_neg hin, if_neg hend, List.extract_toArray, List.toList_toArray,
    List.extract_eq_take_drop, Nat.add_sub_cancel_left,
    List.drop_append_of_le_length (by omega),
    List.take_append_of_le_length (by rw [List.length_drop]; omega)]

theorem result_block_append (h : block * size.toNat + size.toNat ≤ front.length)
    (hsmall : front.length < UInt64.size) :
    (((ofImage (front ++ back).toArray).withBlockSize size).block block).result =
      .ok ((front.drop (block * size.toNat)).take size.toNat) := by
  have hfetch : imageBlock (front ++ back).toArray size block =
      .ok ((front.drop (block * size.toNat)).take size.toNat) := imageBlock_append h hsmall
  have hfull : ¬ ((front.drop (block * size.toNat)).take size.toNat).length < size.toNat := by
    rw [List.length_take, List.length_drop]
    omega
  simp only [Device.block, withBlock, withBlockSize, ofImage, hfetch]
  exact if_neg hfull

end Device

/-- What goes into a volume whose catalog has one leaf. -/
structure VolumeContents where
  /-- The leaf. -/
  leaf : NodeContents
  /-- What its records are. -/
  rows : List CatalogRow
  /-- What is in the blocks behind the catalog. -/
  behind : Bytes
  kind_leaf : leaf.kind = .leaf
  forwardLink_leaf : leaf.forwardLink = 0
  length_leaf : leaf.bytes.length = 512
  reads : leaf.records.map (KeyedRecord.parse · >>= CatalogRow.ofKeyedRecord) = rows.map .ok
  ascending : rows.Pairwise fun a b => a.key.order b.key = .lt
  rows_ne_nil : rows ≠ []

namespace VolumeContents

/-- So many zeros. -/
def zeros (count : Nat) : Bytes := List.replicate count 0

/-- The header of a volume in blocks of 512 bytes, two of which are the catalog's. -/
def header : VolumeHeader :=
  { Volume.sampleHeader with
    blockSize := 512
    catalogFile := ⟨1024, 0, 2,
      #v[⟨3, 2⟩, .unused, .unused, .unused, .unused, .unused, .unused, .unused]⟩ }

/-- The first node of the catalog. Of the numbers in a tree header it has those that a
tree is opened with. -/
def headerNode : Bytes :=
  zeros 16 ++ [0, 0, 0, 1] ++ zeros 12 ++ [2, 0, 0, 0, 0, 0, 0, 2] ++ zeros 472

/-- The tree that is opened with these. -/
def catalog : Tree where
  id := .catalogFile
  fork := header.catalogFile.fork
  rootNode := 1
  nodeSize := 512
  totalNodes := 2

variable (c : VolumeContents)

/-- The image up to the end of the catalog. -/
def front : Bytes := zeros 1024 ++ VolumeHeader.format.encode header ++ headerNode ++ c.leaf.bytes

/-- The image of the volume. -/
def image : Array UInt8 := (c.front ++ c.behind).toArray

/-- The volume that is mounted from the image. -/
def volume : Volume where
  device := (Device.ofImage c.image).withBlockSize 512
  header := header
  catalog := catalog

/-! ## The blocks in front -/

theorem length_zeros_header : (zeros 1024 ++ VolumeHeader.format.encode header).length = 1536 := by
  decide +kernel

theorem length_zeros_headerNode :
    (zeros 1024 ++ VolumeHeader.format.encode header ++ headerNode).length = 2048 := by
  decide +kernel

theorem length_front : c.front.length = 2560 := by
  rw [front, List.length_append, length_zeros_headerNode, c.length_leaf]

theorem result_block {block : Nat} (h : block < 5) :
    (((Device.ofImage c.image).withBlockSize 512).block block).result =
      .ok ((c.front.drop (block * 512)).take 512) := by
  have hlength := c.length_front
  exact Device.result_block_append (show block * 512 + 512 ≤ _ by omega) (hlength ▸ by decide)

theorem block_header : (((Device.ofImage c.image).withBlockSize 512).block 2).result =
    .ok (VolumeHeader.format.encode header) := by
  rw [c.result_block (by decide), front, List.append_assoc, List.append_assoc,
    List.drop_left' (show (zeros 1024).length = 2 * 512 from List.length_replicate ..),
    List.take_left' (by decide +kernel)]

theorem block_headerNode :
    (((Device.ofImage c.image).withBlockSize 512).block 3).result = .ok headerNode := by
  rw [c.result_block (by decide), front, List.append_assoc, List.drop_left' length_zeros_header,
    List.take_left' (by decide +kernel)]

theorem block_leaf :
    (((Device.ofImage c.image).withBlockSize 512).block 4).result = .ok c.leaf.bytes := by
  rw [c.result_block (by decide), front, List.drop_left' length_zeros_headerNode,
    List.take_of_length_le (Nat.le_of_eq c.length_leaf)]

/-! ## Mounting it -/

theorem leads_header : Volume.LeadsToCatalog header where
  signature := by decide
  blockSize := by decide
  long := by decide
  extent := by decide

theorem mounted_eq : Volume.mounted (.ofImage c.image) header headerNode = c.volume := by
  have hcatalog : (Volume.mounted (.ofImage c.image) header headerNode).catalog = catalog := by
    show (⟨_, _, _, _, _⟩ : Tree) = _
    decide
  exact congrArg (Volume.mk c.volume.device header) hcatalog

/-- The header and the tree's header are all that a mount looks at. -/
theorem mountsTo : Volume.MountsTo (.ofImage c.image) [2, 3] (.ok c.volume) := by
  have has : Volume.HasHeader (.ofImage c.image) header :=
    ⟨_, c.block_header, by decide +kernel⟩
  rw [← c.mounted_eq]
  exact .mounted has leads_header c.block_headerNode (by decide)

theorem result_mount : (Volume.mount (.ofImage c.image)).result = .ok c.volume :=
  c.mountsTo.mount_eq.2

/-- The catalog's blocks are the two behind the header. -/
theorem covers_iff {block : Nat} :
    header.catalogFile.extents.Covers block ↔ block = 3 ∨ block = 4 := by
  have huse : header.catalogFile.extents.inUse = [⟨3, 2⟩] := by decide
  rw [ExtentRecord.Covers, huse]
  constructor
  · rintro ⟨d, hd, hfrom, hto⟩
    obtain rfl := List.mem_singleton.mp hd
    have hfrom : 3 ≤ block := hfrom
    have hto : block < 5 := hto
    omega
  · rintro (rfl | rfl) <;> exact ⟨_, List.mem_singleton_self _, by decide, by decide⟩

/-! ## What is in the catalog -/

theorem length_leaf_le : c.leaf.bytes.length ≤ Tree.maxNodeSize :=
  Nat.le_trans (Nat.le_of_eq c.length_leaf) (by decide)

theorem result_readNode : (catalog.readNode c.volume.device 1).result = .ok (c.leaf.node 1) := by
  have hresolve : (catalog.fork.resolve (.ofNat 1)).result = .ok ⟨1, 4, 1⟩ := by decide
  have hstart : 512 = 1 * c.volume.device.blockSize.toNat + 0 := rfl
  have hread : catalog.fork.readAt c.volume.device 512 512 = _ :=
    Fork.readAt_of_block hstart (by decide) (Nat.le_refl 512) (by decide) (by decide)
  have hleaf : (catalog.fork.readAt c.volume.device 512 512).result = .ok c.leaf.bytes := by
    rw [hread, Run.result_bind_of_ok hresolve, Fork.result_withBlock]
    exact (congrArg (Except.bind · _) c.block_leaf).trans
      (congrArg Except.ok (List.take_of_length_le (Nat.le_of_eq c.length_leaf)))
  have hplace : (1 : UInt32).toNat * catalog.nodeSize.toNat = 512 := by decide
  have hsize : catalog.nodeSize.toNat = 512 := by decide
  rw [Tree.result_readNode, hplace, hsize, hleaf, Except.bind,
    c.leaf.parse_bytes c.length_leaf_le]

theorem map_ofHit : (c.leaf.node 1).hits.map CatalogRow.ofHit = c.rows.map .ok := by
  have hrecords : (c.leaf.node 1).hits.map Hit.keyedRecord = c.leaf.records.map KeyedRecord.parse :=
    c.leaf.map_keyedRecord_node c.length_leaf_le 1
  have hread : (c.leaf.node 1).hits.map CatalogRow.ofHit =
      ((c.leaf.node 1).hits.map Hit.keyedRecord).map (· >>= CatalogRow.ofKeyedRecord) := by
    rw [List.map_map]
    rfl
  rw [hread, hrecords, List.map_map]
  exact c.reads

/-- The catalog is well-formed, and what it reads as is what went into it. -/
theorem hasRows : c.volume.HasRows [c.leaf.node 1] c.rows := by
  have hkeys := CatalogRow.keys_of_reads c.map_ofHit
  have hkind : (c.leaf.node 1).kind = .ok .leaf := by
    simp only [Node.kind, NodeContents.node, NodeContents.descriptor, NodeKind.ofCode?_byte,
      c.kind_leaf]
  have hcount : (c.leaf.node 1).recordCount ≠ 0 := by
    have hlength : (c.leaf.node 1).recordCount = c.rows.length := by
      simpa [Node.length_hits] using congrArg List.length c.map_ofHit
    rw [hlength]
    exact fun h => c.rows_ne_nil (List.eq_nil_of_length_eq_zero h)
  refine ⟨{
    root_ne_zero := (by decide : catalog.rootNode ≠ 0)
    subtree := .leaf ⟨c.result_readNode, hkind, hcount, Tree.readable_of_keys hkeys⟩
    ascending := ?_
    linked := .last c.forwardLink_leaf
    length_le := (by decide : 1 ≤ catalog.totalNodes.toNat) }, ?_⟩
  · rw [Tree.records_singleton]
    exact (KeyOrder.pairwise_before_iff hkeys).mpr (List.pairwise_map.mpr c.ascending)
  · rw [Tree.records_singleton]
    exact c.map_ofHit

end VolumeContents

end HfsPlus
