import HfsPlus.Proofs.Device.Padding
import HfsPlus.Proofs.Volume.Confined

/-!
# What is behind the end of a block

A block can come out longer than it should be. Blocks are used in two places only,
for the volume header, which ends where its block does, and for the pieces that a
read is put together from, each cut to the end of its block; and neither use sees
what is behind the end. All other operations have blocks from these two, so two
devices that differ behind the ends of blocks cannot be told apart by any of them
(`padding_unused`).
-/

namespace HfsPlus

variable {dev dev' : Device}

/-! ## Forks -/

namespace Fork

variable {fork : Fork}

/-- The part of a block that a read takes lies in front of its end. -/
theorem piece_of_take {size pos len : Nat} (data : Bytes) :
    ((data.take size).drop (pos % size)).take (min (size - pos % size) len) =
      (data.drop (pos % size)).take (min (size - pos % size) len) := by
  rw [List.drop_take, List.take_take, Nat.min_eq_left (Nat.min_le_left _ _)]

theorem alike_readBlocks (h : Device.Alike dev dev') (hsize : 0 < dev.blockSize.toNat)
    (hsize' : 0 < dev'.blockSize.toNat) (pos len : Nat) :
    Run.Alike (readBlocks dev fork hsize pos len) (readBlocks dev' fork hsize' pos len) := by
  fun_induction readBlocks dev fork hsize pos len with
  | case1 pos =>
    rw [readBlocks, if_pos rfl]
    exact .refl _
  | case2 pos len hlen blockSize logicalBlock hout =>
    rw [readBlocks, if_neg hlen]
    simp only [h.blockSize_eq]
    rw [if_pos hout]
    exact .refl _
  | case3 pos len hlen blockSize logicalBlock hin ih =>
    rw [readBlocks, if_neg hlen]
    simp only [h.blockSize_eq]
    rw [if_neg hin]
    refine Run.Alike.bind (.refl _) fun extent _ => ?_
    refine (h.withBlock _ fun data _ => ?_).bind fun piece _ => ih.map _
    exact congrArg Except.ok (piece_of_take data)

theorem alike_readAt (h : Device.Alike dev dev') (fork : Fork) (pos len : Nat) :
    Run.Alike (fork.readAt dev pos len) (fork.readAt dev' pos len) := by
  simp only [readAt]
  split
  · exact .refl _
  by_cases hsize : 0 < dev.blockSize.toNat
  · have hsize' : 0 < dev'.blockSize.toNat := h.blockSize_eq ▸ hsize
    rw [dif_pos hsize, dif_pos hsize']
    exact alike_readBlocks h hsize hsize' pos len
  · have hsize' : ¬ 0 < dev'.blockSize.toNat := h.blockSize_eq ▸ hsize
    rw [dif_neg hsize, dif_neg hsize']
    exact .refl _

theorem alike_readWhole (h : Device.Alike dev dev') (fork : Fork) (limit : Nat) :
    Run.Alike (fork.readWhole dev limit) (fork.readWhole dev' limit) := by
  simp only [readWhole]
  split
  · exact .refl _
  · split
    · exact .refl _
    · exact alike_readAt h fork 0 _

end Fork

/-! ## Trees -/

namespace Tree

theorem alike_ofFork (h : Device.Alike dev dev') (id : CatalogId) (fork : Fork) :
    Run.Alike (ofFork dev id fork) (ofFork dev' id fork) :=
  (Fork.alike_readAt h fork _ _).bind fun _ _ => .refl _

theorem alike_readNode (h : Device.Alike dev dev') (tree : Tree) (number : UInt32) :
    Run.Alike (tree.readNode dev number) (tree.readNode dev' number) :=
  (Fork.alike_readAt h tree.fork _ _).bind fun _ _ => .refl _

theorem alike_search (h : Device.Alike dev dev') (tree : Tree)
    (order : KeyedRecord → Except Error Ordering) (skip : Nat) :
    Run.Alike (tree.search dev order skip) (tree.search dev' order skip) := by
  have hload := alike_readNode h tree
  have hsteps := inStep_any (tree.readNode dev) (tree.readNode dev') tree order skip
  refine ⟨(hsteps.result_eq fun number => (hload number).result_eq.symm).symm, ?_⟩
  rw [← List.filterMap_eq_map]
  refine hsteps.filterMap_events (fun number => (hload number).result_eq ▸ .refl _)
    fun number => ?_
  rw [List.filterMap_eq_map]
  exact (hload number).outline_eq

end Tree

/-! ## Volumes -/

namespace Volume

variable {v : Volume}

/-- The same volume on another device. -/
def onDevice (v : Volume) (dev' : Device) : Volume := { v with device := dev' }

theorem alike_openCatalog (h : ∀ size, (dev.withBlockSize size).Alike (dev'.withBlockSize size))
    (header : VolumeHeader) :
    Run.Alike ((fun v => v.onDevice (dev'.withBlockSize v.header.blockSize)) <$>
      openCatalog dev header) (openCatalog dev' header) := by
  rw [openCatalog, openCatalog]
  split
  · split
    · rw [map_bind]
      exact (Tree.alike_ofFork (h _) .catalogFile _).bind fun catalog _ => .refl _
    · exact .refl _
  · exact .refl _

theorem alike_mount (h : ∀ size, (dev.withBlockSize size).Alike (dev'.withBlockSize size)) :
    Run.Alike ((fun v => v.onDevice (dev'.withBlockSize v.header.blockSize)) <$> mount dev)
      (mount dev') := by
  rw [mount, mount, map_bind]
  exact ((h Device.probeBlockSize).withBlock _ fun data hlong =>
    Format.read_take VolumeHeader.totalWidth_widths hlong).bind
    fun header _ => alike_openCatalog h header

section Queries

variable (h : v.device.Alike dev')
include h

theorem alike_lookup (folder : Entry) (name : Name) :
    Run.Alike (v.lookup folder name) ((v.onDevice dev').lookup folder name) := by
  simp only [lookup]
  split
  · exact (Tree.alike_search h v.catalog _ 0).bind fun _ _ => .refl _
  · exact .refl _

theorem alike_entryAt (folder : Entry) (position : Nat) :
    Run.Alike (v.entryAt folder position) ((v.onDevice dev').entryAt folder position) :=
  (Tree.alike_search h v.catalog _ position).bind fun _ _ => .refl _

theorem alike_next (c : Cursor) :
    Run.Alike (c.next v).1 (c.next (v.onDevice dev')).1 ∧
      (c.next (v.onDevice dev')).2 = (c.next v).2 := by
  have hentry := alike_entryAt h c.folder c.position.toNat
  rw [Cursor.fst_next, Cursor.fst_next]
  refine ⟨hentry, ?_⟩
  rw [Cursor.next, Cursor.next, hentry.result_eq]
  cases (v.entryAt c.folder c.position.toNat).result <;> rfl

theorem alike_walk (names : List Name) : ∀ start : Entry,
    Run.Alike (v.walk start names) ((v.onDevice dev').walk start names) := by
  induction names with
  | nil =>
    intro start
    rw [walk, walk, List.foldlM_nil, List.foldlM_nil]
    exact .refl _
  | cons name rest ih =>
    intro start
    rw [walk, walk, List.foldlM_cons, List.foldlM_cons]
    refine Run.Alike.bind ?_ fun entry _ => ih entry
    rw [enter, enter]
    split
    · exact alike_lookup h start name
    · exact .refl _

theorem alike_read (entry : Entry) (pos len : Nat) :
    Run.Alike (v.read entry pos len) ((v.onDevice dev').read entry pos len) := by
  rw [read, read]
  split
  · exact .refl _
  · exact Fork.alike_readAt h entry.dataFork pos len

theorem alike_readLink (entry : Entry) :
    Run.Alike (v.readLink entry) ((v.onDevice dev').readLink entry) := by
  rw [readLink, readLink]
  split
  · exact .refl _
  · exact Fork.alike_readWhole h entry.dataFork _
  · exact .refl _

theorem alike_query {α : Type} (q : Query α) : Run.Alike (q.run v) (q.run (v.onDevice dev')) := by
  cases q with
  | readNode number => exact Tree.alike_readNode h v.catalog number
  | search order skip => exact Tree.alike_search h v.catalog order skip
  | lookup folder name => exact alike_lookup h folder name
  | next c =>
    obtain ⟨hnext, hbehind⟩ := alike_next h c
    rw [Query.run, Query.run, hbehind]
    exact hnext.map _
  | lookupPath path => exact alike_walk h _ .root
  | read entry pos len => exact alike_read h entry pos len
  | readLink entry => exact alike_readLink h entry

end Queries

/-- Two devices that hand out the same blocks, and anything behind their ends, are
the same to every operation: to a mount, if they are so whatever the size of a block
is set to; to the opening of a tree, a read of a whole fork, and each query to a
volume, if they are so at the size that they have. The volumes that are mounted
differ in the device. -/
theorem padding_unused (dev dev' : Device) :
    ((∀ size, (dev.withBlockSize size).Alike (dev'.withBlockSize size)) →
      Run.SameLog
        ((fun v => v.onDevice (dev'.withBlockSize v.header.blockSize)) <$> mount dev)
        (mount dev')) ∧
    (dev.Alike dev' →
      (∀ (id : CatalogId) (fork : Fork),
        Run.SameLog (Tree.ofFork dev id fork) (Tree.ofFork dev' id fork)) ∧
      (∀ (fork : Fork) (limit : Nat),
        Run.SameLog (fork.readWhole dev limit) (fork.readWhole dev' limit)) ∧
      ∀ v : Volume, v.device = dev → ∀ {α : Type} (q : Query α),
        Run.SameLog (q.run v) (q.run (v.onDevice dev'))) := by
  refine ⟨fun h => (alike_mount h).sameLog, fun h => ⟨fun id fork => ?_, fun fork limit => ?_, ?_⟩⟩
  · exact (Tree.alike_ofFork h id fork).sameLog
  · exact (Fork.alike_readWhole h fork limit).sameLog
  · rintro v rfl α q
    exact (alike_query h q).sameLog

/-! ### A sample

The image of `tinyVolume`, on a device that adds sixteen bytes to each block. -/

def tinyDevice : Device := .ofImage (tinyImage 0)

def paddedDevice : Device := tinyDevice.withFaults { excess := 16 }

theorem tinyDevice_alike (size : UInt32) :
    (tinyDevice.withBlockSize size).Alike (paddedDevice.withBlockSize size) :=
  Device.alike_withFaults 16 fun _ _ => Device.length_of_imageBlock

theorem padded_alike :
    (mount paddedDevice).requests = [2, 3] ∧
    (mount paddedDevice).result =
      .ok ((tinyVolume 0).onDevice (paddedDevice.withBlockSize 512)) ∧
    Run.SameLog ((tinyVolume 0).lookup .root [])
      (((tinyVolume 0).onDevice (paddedDevice.withBlockSize 512)).lookup .root []) := by
  obtain ⟨hrequests, hresult⟩ :
      (mount tinyDevice).requests = [2, 3] ∧ (mount tinyDevice).result = .ok (tinyVolume 0) :=
    (tinyContents 0).mountsTo.mount_eq
  obtain ⟨hmount, -⟩ := padding_unused tinyDevice paddedDevice
  have hsame := hmount tinyDevice_alike
  obtain ⟨-, hmounted⟩ :=
    padding_unused (tinyDevice.withBlockSize 512) (paddedDevice.withBlockSize 512)
  obtain ⟨-, -, hquery⟩ := hmounted (tinyDevice_alike 512)
  have hdevice : (tinyVolume 0).device = tinyDevice.withBlockSize 512 := rfl
  refine ⟨?_, ?_, hquery _ hdevice (.lookup .root [])⟩
  · rw [hsame.requests_eq, Run.requests_map, hrequests]
  · rw [hsame.result_eq, Run.result_map, hresult]
    rfl

end Volume

end HfsPlus
