import HfsPlus.Proofs.Format.Layout
import HfsPlus.Proofs.Tree.Blocks
import HfsPlus.Proofs.Tree.Layout
import HfsPlus.Volume.Basic

/-!
# How a mount is decided

A mount looks at one block of a fixed size, and unless that already decides
against the volume, at one more, of the size that the first one gives. Which
blocks these are and what comes of them is the table `MountsTo`. It speaks of
the header, of the device's answers, and of three numbers at their places in the
second block; of forks, extents and trees it knows nothing. `mount_decides`
says that a mount goes by this table and by nothing else.
-/

namespace HfsPlus

namespace Volume

variable {dev : Device} {header : VolumeHeader} {e : Error}

/-- The header lies in the block that is looked at first. -/
def HasHeader (dev : Device) (header : VolumeHeader) : Prop :=
  ∃ data, ((dev.withBlockSize 512).block 2).result = .ok data ∧
    VolumeHeader.format.read data = .ok header

/-- The header passes, and its catalog has a first block with a tree header. -/
structure LeadsToCatalog (header : VolumeHeader) : Prop where
  signature : header.signature = 0x482B
  blockSize : VolumeHeader.ValidBlockSize header.blockSize
  long : 120 ≤ header.catalogFile.logicalSize.toNat
  extent : header.catalogFile.extents[0].blockCount ≠ 0

/-- The size of a node, as the first node of a tree gives it. -/
def nodeSizeIn (node : Bytes) : UInt16 := UInt16.ofNat (BigEndian.field node 32 2)

/-- The volume whose catalog starts with this node. -/
def mounted (dev : Device) (header : VolumeHeader) (node : Bytes) : Volume where
  device := dev.withBlockSize header.blockSize
  header := header
  catalog := {
    id := .catalogFile
    fork := header.catalogFile.fork
    rootNode := UInt32.ofNat (BigEndian.field node 16 4)
    nodeSize := nodeSizeIn node
    totalNodes := UInt32.ofNat (BigEndian.field node 36 4) }

/-- Which blocks a mount asks for, and how it ends. -/
inductive MountsTo (dev : Device) : (blocks : List Nat) → Except Error Volume → Prop where
  | unreadable {e : Error} (probe : ((dev.withBlockSize 512).block 2).result = .error e) :
      MountsTo dev [2] (.error e)
  | foreign {header : VolumeHeader} (has : HasHeader dev header)
      (signature : header.signature ≠ 0x482B) :
      MountsTo dev [2] (.error (.unsupported .notHfsPlus))
  | blockSize {header : VolumeHeader} (has : HasHeader dev header)
      (signature : header.signature = 0x482B)
      (size : ¬ VolumeHeader.ValidBlockSize header.blockSize) :
      MountsTo dev [2] (.error (.corrupted (.blockSize header.blockSize)))
  -- The tree header takes up the bytes from 14 to 120 of the catalog.
  | shortCatalog {header : VolumeHeader} (has : HasHeader dev header)
      (signature : header.signature = 0x482B)
      (size : VolumeHeader.ValidBlockSize header.blockSize)
      (short : header.catalogFile.logicalSize.toNat < 120) :
      MountsTo dev [2]
        (.error (.shortRead 106 (header.catalogFile.logicalSize.toNat - 14)))
  | noExtent {header : VolumeHeader} (has : HasHeader dev header)
      (signature : header.signature = 0x482B)
      (size : VolumeHeader.ValidBlockSize header.blockSize)
      (long : 120 ≤ header.catalogFile.logicalSize.toNat)
      (empty : header.catalogFile.extents[0].blockCount = 0) :
      MountsTo dev [2] (.error .notFound)
  -- From here on there is a second block.
  | unreadableCatalog {header : VolumeHeader} {e : Error} (has : HasHeader dev header)
      (leads : LeadsToCatalog header)
      (read : ((dev.withBlockSize header.blockSize).block
        header.catalogFile.extents[0].startBlock.toNat).result = .error e) :
      MountsTo dev [2, header.catalogFile.extents[0].startBlock.toNat] (.error e)
  | nodeSize {header : VolumeHeader} {node : Bytes} (has : HasHeader dev header)
      (leads : LeadsToCatalog header)
      (read : ((dev.withBlockSize header.blockSize).block
        header.catalogFile.extents[0].startBlock.toNat).result = .ok node)
      (size : ¬ Tree.ValidNodeSize (nodeSizeIn node)) :
      MountsTo dev [2, header.catalogFile.extents[0].startBlock.toNat]
        (.error (.corrupted (.nodeSize (nodeSizeIn node))))
  | mounted {header : VolumeHeader} {node : Bytes} (has : HasHeader dev header)
      (leads : LeadsToCatalog header)
      (read : ((dev.withBlockSize header.blockSize).block
        header.catalogFile.extents[0].startBlock.toNat).result = .ok node)
      (size : Tree.ValidNodeSize (nodeSizeIn node)) :
      MountsTo dev [2, header.catalogFile.extents[0].startBlock.toNat]
        (.ok (mounted dev header node))

/-! ## The first block -/

theorem mount_of_unreadable
    (h : ((dev.withBlockSize 512).block 2).result = .error e) :
    (mount dev).requests = [2] ∧ (mount dev).result = .error e := by
  have hprobe : ((dev.withBlockSize Device.probeBlockSize).withBlock VolumeHeader.block
      VolumeHeader.format.read).result = .error e := by
    rw [Fork.result_withBlock]
    exact congrArg (Except.bind · VolumeHeader.format.read) h
  rw [mount, Run.requests_bind_of_error hprobe, Run.requests_withBlock]
  exact ⟨rfl, Run.result_bind_of_error hprobe _⟩

theorem mount_of_hasHeader (h : HasHeader dev header) :
    (mount dev).requests = 2 :: (openCatalog dev header).requests ∧
      (mount dev).result = (openCatalog dev header).result := by
  obtain ⟨data, hdata, hread⟩ := h
  have hprobe : ((dev.withBlockSize Device.probeBlockSize).withBlock VolumeHeader.block
      VolumeHeader.format.read).result = .ok header := by
    rw [Fork.result_withBlock]
    exact (congrArg (Except.bind · VolumeHeader.format.read) hdata).trans hread
  rw [mount, Run.requests_bind_of_ok hprobe, Run.requests_withBlock]
  exact ⟨rfl, Run.result_bind_of_ok hprobe _⟩

/-- A full block always holds a header, sensible or not. -/
theorem exists_hasHeader {data : Bytes}
    (h : ((dev.withBlockSize 512).block 2).result = .ok data) :
    ∃ header, HasHeader dev header := by
  obtain ⟨header, hread⟩ := Format.exists_read_of_le (f := VolumeHeader.format)
    VolumeHeader.totalWidth_widths (Device.length_of_block h)
  exact ⟨header, data, h, hread⟩

/-! ## The header -/

theorem hfsPlus_iff (code : UInt16) :
    Signature.ofCode? code = some .hfsPlus ↔ code = 0x482B := by
  rw [Signature.ofCode?]
  split
  · next h => simp [h]
  · next h =>
    refine iff_of_false ?_ h
    split <;> simp

theorem openCatalog_of_foreign (h : header.signature ≠ 0x482B) :
    (openCatalog dev header).requests = [] ∧
      (openCatalog dev header).result = .error (.unsupported .notHfsPlus) := by
  rw [openCatalog, if_neg (fun hcode => h ((hfsPlus_iff _).mp hcode))]
  exact ⟨rfl, rfl⟩

theorem openCatalog_of_blockSize (hsignature : header.signature = 0x482B)
    (hsize : ¬ VolumeHeader.ValidBlockSize header.blockSize) :
    (openCatalog dev header).requests = [] ∧
      (openCatalog dev header).result =
        .error (.corrupted (.blockSize header.blockSize)) := by
  rw [openCatalog, if_pos ((hfsPlus_iff _).mpr hsignature), if_neg hsize]
  exact ⟨rfl, rfl⟩

theorem openCatalog_of_valid (dev : Device) (hsignature : header.signature = 0x482B)
    (hsize : VolumeHeader.ValidBlockSize header.blockSize) :
    let dev' := dev.withBlockSize header.blockSize
    (openCatalog dev header).requests =
        (header.catalogFile.fork.readAt dev' NodeDescriptor.size TreeHeader.size).requests ∧
      (openCatalog dev header).result =
        (fun catalog => ⟨dev', header, catalog⟩) <$>
          (Tree.ofFork dev' .catalogFile header.catalogFile.fork).result := by
  intro dev'
  rw [openCatalog, if_pos ((hfsPlus_iff _).mpr hsignature), if_pos hsize]
  constructor
  · rw [Run.requests_bind_of_quiet fun _ => rfl]
    exact Tree.requests_ofFork dev' _ _
  · rw [Run.result_bind]
    cases (Tree.ofFork dev' .catalogFile header.catalogFile.fork).result with
    | error e => rfl
    | ok catalog => rfl

/-! ## The second block -/

theorem readAt_treeHeader (fork : Fork) (hsize : 512 ≤ dev.blockSize.toNat)
    (hlong : 120 ≤ fork.size.toNat) :
    fork.readAt dev NodeDescriptor.size TreeHeader.size = (do
      let extent ← fork.resolve 0
      dev.withBlock extent.physicalStart.toNat fun node =>
        .ok ((node.drop 14).take 106)) := by
  have hplace : NodeDescriptor.size = 0 * dev.blockSize.toNat + 14 := by
    rw [Nat.zero_mul]
    rfl
  exact Fork.readAt_of_block hplace (by decide) (Nat.le_trans (by decide) hsize) hlong (by decide)

theorem readAt_of_empty (fork : Fork) (hsize : 512 ≤ dev.blockSize.toNat)
    (hlong : 120 ≤ fork.size.toNat) (hempty : fork.extents[0].blockCount = 0) :
    (fork.readAt dev NodeDescriptor.size TreeHeader.size).requests = [] ∧
      (fork.readAt dev NodeDescriptor.size TreeHeader.size).result = .error .notFound := by
  have hresolve : (fork.resolve 0).result = .error .notFound := by
    rw [Fork.result_resolve, ExtentRecord.resolve_zero, if_pos hempty]
  rw [readAt_treeHeader fork hsize hlong, Run.requests_bind_of_error hresolve,
    Run.result_bind_of_error hresolve, Fork.requests_resolve]
  exact ⟨rfl, rfl⟩

theorem readAt_of_extent (fork : Fork) (hsize : 512 ≤ dev.blockSize.toNat)
    (hlong : 120 ≤ fork.size.toNat) (hextent : fork.extents[0].blockCount ≠ 0) :
    let start := fork.extents[0].startBlock.toNat
    (fork.readAt dev NodeDescriptor.size TreeHeader.size).requests = [start] ∧
      (fork.readAt dev NodeDescriptor.size TreeHeader.size).result =
        (dev.block start).result.bind fun node => .ok ((node.drop 14).take 106) := by
  have hresolve : (fork.resolve 0).result =
      .ok ⟨0, fork.extents[0].startBlock, fork.extents[0].blockCount⟩ := by
    rw [Fork.result_resolve, ExtentRecord.resolve_zero, if_neg hextent]
  rw [readAt_treeHeader fork hsize hlong, Run.requests_bind_of_ok hresolve,
    Run.result_bind_of_ok hresolve, Fork.requests_resolve, Run.requests_withBlock,
    Fork.result_withBlock]
  exact ⟨rfl, rfl⟩

/-- The tree header's fields, counted from the start of the node. -/
theorem exists_treeHeader {node : Bytes} (h : 512 ≤ node.length) :
    ∃ tree, TreeHeader.format.read ((node.drop 14).take 106) = .ok tree ∧
      tree.rootNode = UInt32.ofNat (BigEndian.field node 16 4) ∧
      tree.nodeSize = nodeSizeIn node ∧
      tree.totalNodes = UInt32.ofNat (BigEndian.field node 36 4) := by
  have hlong : TreeHeader.size ≤ ((node.drop 14).take 106).length := by
    simp [TreeHeader.size]
    omega
  obtain ⟨tree, htree⟩ := Format.exists_read_of_le (f := TreeHeader.format)
    TreeHeader.totalWidth_widths hlong
  obtain ⟨hroot, hsize, htotal⟩ := TreeHeader.fields_of_read htree
  rw [BigEndian.field_take _ (by decide), BigEndian.field_drop] at hroot hsize htotal
  exact ⟨tree, htree, hroot, hsize, htotal⟩

theorem toNat_of_validBlockSize {size : UInt32} (h : VolumeHeader.ValidBlockSize size) :
    512 ≤ size.toNat :=
  UInt32.le_iff_toNat_le.mp h.1

theorem openCatalog_of_short (hsignature : header.signature = 0x482B)
    (hsize : VolumeHeader.ValidBlockSize header.blockSize)
    (hshort : header.catalogFile.logicalSize.toNat < 120) :
    (openCatalog dev header).requests = [] ∧
      (openCatalog dev header).result =
        .error (.shortRead 106 (header.catalogFile.logicalSize.toNat - 14)) := by
  have hread : header.catalogFile.fork.readAt (dev.withBlockSize header.blockSize)
      NodeDescriptor.size TreeHeader.size =
        Run.fail (.shortRead 106 (header.catalogFile.logicalSize.toNat - 14)) := by
    have hout : header.catalogFile.logicalSize.toNat - 14 < 106 := by omega
    exact if_pos hout
  obtain ⟨hrequests, hresult⟩ := openCatalog_of_valid dev hsignature hsize
  rw [hrequests, hresult, Tree.result_ofFork, hread]
  exact ⟨rfl, rfl⟩

theorem openCatalog_of_empty (hsignature : header.signature = 0x482B)
    (hsize : VolumeHeader.ValidBlockSize header.blockSize)
    (hlong : 120 ≤ header.catalogFile.logicalSize.toNat)
    (hempty : header.catalogFile.extents[0].blockCount = 0) :
    (openCatalog dev header).requests = [] ∧
      (openCatalog dev header).result = .error .notFound := by
  have hblock : 512 ≤ (dev.withBlockSize header.blockSize).blockSize.toNat :=
    toNat_of_validBlockSize hsize
  obtain ⟨hrequests, hresult⟩ := openCatalog_of_valid dev hsignature hsize
  obtain ⟨hnone, hread⟩ := readAt_of_empty header.catalogFile.fork hblock hlong hempty
  rw [hrequests, hresult, Tree.result_ofFork, hread]
  exact ⟨hnone, rfl⟩

theorem openCatalog_of_leads (h : LeadsToCatalog header) {answer : Except Error Bytes}
    (hread : ((dev.withBlockSize header.blockSize).block
      header.catalogFile.extents[0].startBlock.toNat).result = answer) :
    (openCatalog dev header).requests = [header.catalogFile.extents[0].startBlock.toNat] ∧
      (openCatalog dev header).result = answer.bind fun node =>
        if Tree.ValidNodeSize (nodeSizeIn node) then
          .ok (mounted dev header node)
        else
          .error (.corrupted (.nodeSize (nodeSizeIn node))) := by
  have hsize : 512 ≤ (dev.withBlockSize header.blockSize).blockSize.toNat :=
    toNat_of_validBlockSize h.blockSize
  obtain ⟨hrequests, hresult⟩ := openCatalog_of_valid dev h.signature h.blockSize
  obtain ⟨hone, hbytes⟩ := readAt_of_extent header.catalogFile.fork hsize h.long h.extent
  refine ⟨hrequests.trans hone, ?_⟩
  have hbytes := hbytes.trans (congrArg (Except.bind · _) hread)
  rw [hresult, Tree.result_ofFork, hbytes]
  cases answer with
  | error e => rfl
  | ok node =>
    obtain ⟨tree, htree, hroot, hnodeSize, htotal⟩ :=
      exists_treeHeader (Nat.le_trans hsize (Device.length_of_block hread))
    show _ <$> (TreeHeader.format.read _).bind _ = (if _ then _ else _)
    rw [htree]
    show _ <$> (if _ then _ else _) = _
    rw [← hnodeSize]
    by_cases hvalid : Tree.ValidNodeSize tree.nodeSize
    · rw [if_pos hvalid, if_pos hvalid, mounted, ← hroot, ← hnodeSize, ← htotal]
      rfl
    · rw [if_neg hvalid, if_neg hvalid]
      rfl

/-! ## The whole table -/

theorem mount_of_openCatalog {blocks : List Nat} {result : Except Error Volume}
    (has : HasHeader dev header)
    (h : (openCatalog dev header).requests = blocks ∧
      (openCatalog dev header).result = result) :
    (mount dev).requests = 2 :: blocks ∧ (mount dev).result = result := by
  obtain ⟨hrequests, hresult⟩ := mount_of_hasHeader has
  exact ⟨hrequests.trans (congrArg _ h.1), hresult.trans h.2⟩

theorem MountsTo.mount_eq {blocks : List Nat} {result : Except Error Volume}
    (h : MountsTo dev blocks result) :
    (mount dev).requests = blocks ∧ (mount dev).result = result := by
  cases h with
  | unreadable probe => exact mount_of_unreadable probe
  | foreign has signature => exact mount_of_openCatalog has (openCatalog_of_foreign signature)
  | blockSize has signature size =>
    exact mount_of_openCatalog has (openCatalog_of_blockSize signature size)
  | shortCatalog has signature size short =>
    exact mount_of_openCatalog has (openCatalog_of_short signature size short)
  | noExtent has signature size long empty =>
    exact mount_of_openCatalog has (openCatalog_of_empty signature size long empty)
  | unreadableCatalog has leads read =>
    exact mount_of_openCatalog has (openCatalog_of_leads leads read)
  | nodeSize has leads read size =>
    obtain ⟨hrequests, hresult⟩ := openCatalog_of_leads leads read
    exact mount_of_openCatalog has ⟨hrequests, hresult.trans (if_neg size)⟩
  | mounted has leads read size =>
    obtain ⟨hrequests, hresult⟩ := openCatalog_of_leads leads read
    exact mount_of_openCatalog has ⟨hrequests, hresult.trans (if_pos size)⟩

theorem MountsTo.length_le {blocks : List Nat} {result : Except Error Volume}
    (h : MountsTo dev blocks result) : blocks.length ≤ 2 := by
  cases h <;> simp

theorem MountsTo.device_eq {blocks : List Nat} {v : Volume}
    (h : MountsTo dev blocks (.ok v)) : v.device = dev.withBlockSize v.header.blockSize := by
  cases h
  rfl

theorem MountsTo.le_blockSize {blocks : List Nat} {v : Volume}
    (h : MountsTo dev blocks (.ok v)) : 512 ≤ v.device.blockSize.toNat := by
  cases h with
  | mounted has leads read size => exact toNat_of_validBlockSize leads.blockSize

theorem exists_mountsTo (dev : Device) : ∃ blocks result, MountsTo dev blocks result := by
  cases hprobe : ((dev.withBlockSize 512).block 2).result with
  | error e => exact ⟨_, _, .unreadable hprobe⟩
  | ok data =>
    obtain ⟨header, has⟩ := exists_hasHeader hprobe
    by_cases hsignature : header.signature = 0x482B
    · by_cases hsize : VolumeHeader.ValidBlockSize header.blockSize
      · rcases Nat.lt_or_ge header.catalogFile.logicalSize.toNat 120 with hshort | hlong
        · exact ⟨_, _, .shortCatalog has hsignature hsize hshort⟩
        · by_cases hextent : header.catalogFile.extents[0].blockCount = 0
          · exact ⟨_, _, .noExtent has hsignature hsize hlong hextent⟩
          · have leads : LeadsToCatalog header := ⟨hsignature, hsize, hlong, hextent⟩
            cases hread : ((dev.withBlockSize header.blockSize).block
              header.catalogFile.extents[0].startBlock.toNat).result with
            | error e => exact ⟨_, _, .unreadableCatalog has leads hread⟩
            | ok node =>
              by_cases hvalid : Tree.ValidNodeSize (nodeSizeIn node)
              · exact ⟨_, _, .mounted has leads hread hvalid⟩
              · exact ⟨_, _, .nodeSize has leads hread hvalid⟩
      · exact ⟨_, _, .blockSize has hsignature hsize⟩
    · exact ⟨_, _, .foreign has hsignature⟩

theorem mountsTo_mount (dev : Device) :
    MountsTo dev (mount dev).requests (mount dev).result := by
  obtain ⟨blocks, result, h⟩ := exists_mountsTo dev
  obtain ⟨rfl, rfl⟩ := h.mount_eq
  exact h

theorem device_of_mount {v : Volume} (h : (mount dev).result = .ok v) :
    v.device = dev.withBlockSize v.header.blockSize :=
  (h ▸ mountsTo_mount dev).device_eq

theorem le_blockSize_of_mount {v : Volume} (h : (mount dev).result = .ok v) :
    512 ≤ v.device.blockSize.toNat :=
  (h ▸ mountsTo_mount dev).le_blockSize

/-- A mount goes by the table, with the numbers of the header found at fixed
places of the first block. It asks for two blocks at most. How large the blocks
were before is of no consequence; afterwards they are as large as the header
says. -/
theorem mount_decides (dev : Device) :
    (∀ blocks result, (mount dev).requests = blocks ∧ (mount dev).result = result ↔
      MountsTo dev blocks result) ∧
    (∀ header, HasHeader dev header → ∃ data,
      ((dev.withBlockSize 512).block 2).result = .ok data ∧
      header.signature = UInt16.ofNat (BigEndian.field data 0 2) ∧
      header.blockSize = UInt32.ofNat (BigEndian.field data 40 4) ∧
      header.catalogFile.logicalSize = UInt64.ofNat (BigEndian.field data 272 8) ∧
      header.catalogFile.extents[0].startBlock = UInt32.ofNat (BigEndian.field data 288 4) ∧
      header.catalogFile.extents[0].blockCount = UInt32.ofNat (BigEndian.field data 292 4)) ∧
    (mount dev).requests.length ≤ 2 ∧
    (∀ size, mount (dev.withBlockSize size) = mount dev) ∧
    ∀ v, (mount dev).result = .ok v → v.device = dev.withBlockSize v.header.blockSize := by
  refine ⟨fun blocks result => ⟨?_, MountsTo.mount_eq⟩, ?_,
    (mountsTo_mount dev).length_le, fun size => rfl, fun v => device_of_mount⟩
  · intro h
    obtain ⟨rfl, rfl⟩ := h
    exact mountsTo_mount dev
  · intro header has
    obtain ⟨data, hdata, hread⟩ := has
    exact ⟨data, hdata, VolumeHeader.fields_of_read hread⟩

end Volume

end HfsPlus
