import HfsPlus.Proofs.Device.Reads
import HfsPlus.Proofs.Fork.Read

/-!
# The blocks of a fork

Whatever byte of a fork is asked for, and however far out it lies, the block
that is borrowed for it is one that the descriptors in use name
(`Fork.reads_readAt`). That is all that a fork can touch, so it is also all that
a read can depend on: two devices that have the same to say about these blocks
are read alike, to the last event (`Fork.readAt_congr`).
-/

namespace HfsPlus

/-- The block lies in one of the descriptors in use. -/
def ExtentRecord.Covers (extents : ExtentRecord) (block : Nat) : Prop :=
  ∃ d ∈ extents.inUse,
    d.startBlock.toNat ≤ block ∧ block < d.startBlock.toNat + d.blockCount.toNat

namespace ExtentRecord

theorem exists_descriptor_of_resolveFrom {logicalBlock : UInt32}
    {descriptors : List ExtentDescriptor} : ∀ {ahead : UInt32} {extent : Extent},
    resolveFrom logicalBlock descriptors ahead = .ok extent →
    ∃ d ∈ descriptors.takeWhile (·.blockCount ≠ 0),
      d.startBlock.toNat ≤ extent.physicalStart.toNat ∧
      extent.physicalStart.toNat < d.startBlock.toNat + d.blockCount.toNat := by
  induction descriptors with
  | nil => simp [resolveFrom]
  | cons d rest ih =>
    intro ahead extent h
    rw [resolveFrom] at h
    by_cases hzero : d.blockCount = 0
    · simp [hzero] at h
    · rw [if_neg hzero] at h
      rw [List.takeWhile_cons_of_pos (by simpa using hzero)]
      split at h
      · next hahead =>
        split at h
        · next hfits =>
          cases h
          have hlt := UInt32.lt_iff_toNat_lt.mp hahead
          have hstart : (d.startBlock + ahead).toNat = d.startBlock.toNat + ahead.toNat := by
            rw [UInt32.toNat_add]
            exact Nat.mod_eq_of_lt hfits
          exact ⟨d, List.mem_cons_self, by simp [hstart], by simp [hstart]; omega⟩
        · cases h
      · obtain ⟨found, hmem, hplace⟩ := ih h
        exact ⟨found, List.mem_cons_of_mem d hmem, hplace⟩

theorem covers_of_resolve {extents : ExtentRecord} {logicalBlock : UInt32} {extent : Extent}
    (h : extents.resolve logicalBlock = .ok extent) :
    extents.Covers extent.physicalStart.toNat :=
  exists_descriptor_of_resolveFrom h

end ExtentRecord

/-! ## What a read borrows -/

namespace Fork

variable {dev dev' : Device} {fork : Fork} {P : Nat → Prop}

theorem requests_resolve (fork : Fork) (logicalBlock : UInt32) :
    (fork.resolve logicalBlock).requests = [] := by
  rw [resolve]
  split <;> rfl

theorem reads_resolve (dev : Device) (fork : Fork) (logicalBlock : UInt32) :
    Run.Reads dev P (fork.resolve logicalBlock) := by
  rw [resolve]
  split
  · exact (Run.Reads.note _).bind fun _ _ => .fail _
  · exact .ofExcept _

theorem reads_readBlocks (hsize : 0 < dev.blockSize.toNat) (pos len : Nat) :
    Run.Reads dev fork.extents.Covers (readBlocks dev fork hsize pos len) := by
  fun_induction readBlocks dev fork hsize pos len with
  | case1 pos => exact .pure _
  | case2 pos len hlen blockSize logicalBlock hout => exact .fail _
  | case3 pos len hlen blockSize logicalBlock hin ih =>
    refine (reads_resolve dev fork _).bind fun extent hextent => ?_
    rw [result_resolve] at hextent
    exact (Run.Reads.withBlock (ExtentRecord.covers_of_resolve hextent) _).bind
      fun piece _ => ih.map _

theorem reads_readAt (dev : Device) (fork : Fork) (pos len : Nat) :
    Run.Reads dev fork.extents.Covers (fork.readAt dev pos len) := by
  simp only [readAt]
  split
  · exact .fail _
  · split
    · exact reads_readBlocks _ pos len
    · exact .fail _

theorem reads_readWhole (dev : Device) (fork : Fork) (limit : Nat) :
    Run.Reads dev fork.extents.Covers (fork.readWhole dev limit) := by
  simp only [readWhole]
  split
  · exact .fail _
  · split
    · exact .fail _
    · exact reads_readAt dev fork 0 _

end Fork

/-! ## Reading in the first block -/

theorem ExtentRecord.resolve_zero (extents : ExtentRecord) :
    extents.resolve 0 =
      if extents[0].blockCount = 0 then .error .notFound
      else .ok ⟨0, extents[0].startBlock, extents[0].blockCount⟩ := by
  obtain ⟨⟨descriptors⟩, hsize⟩ := extents
  cases descriptors with
  | nil => cases hsize
  | cons d rest =>
    show resolveFrom 0 (d :: rest) 0 = if d.blockCount = 0 then _ else _
    rw [resolveFrom]
    by_cases hzero : d.blockCount = 0
    · rw [if_pos hzero, if_pos hzero]
    · have hpos : (0 : UInt32) < d.blockCount := UInt32.pos_iff_ne_zero.mpr hzero
      have hfits : d.startBlock.toNat + (0 : UInt32).toNat < UInt32.size := d.startBlock.toNat_lt
      rw [if_neg hzero, if_neg hzero, if_pos hpos, if_pos hfits]
      simp

namespace Fork

variable {dev : Device} {fork : Fork} {pos len : Nat}

/-- A read that keeps within one block borrows that block and no other. -/
theorem readAt_of_block {block start : Nat} (hpos : pos = block * dev.blockSize.toNat + start)
    (hlen : 0 < len) (hblock : start + len ≤ dev.blockSize.toNat)
    (hfits : pos + len ≤ fork.size.toNat) (hin : block < UInt32.size) :
    fork.readAt dev pos len = (do
      let extent ← fork.resolve (.ofNat block)
      dev.withBlock extent.physicalStart.toNat fun data =>
        .ok ((data.drop start).take len)) := by
  have hlong : ¬ fork.size.toNat - pos < len := by omega
  have hsize : 0 < dev.blockSize.toNat := by omega
  have hlt : start < dev.blockSize.toNat := by omega
  have hdiv : pos / dev.blockSize.toNat = block := by
    rw [hpos, Nat.mul_comm, Nat.mul_add_div hsize, Nat.div_eq_of_lt hlt, Nat.add_zero]
  have hmod : pos % dev.blockSize.toNat = start := by
    rw [hpos, Nat.mul_add_mod_self_right, Nat.mod_eq_of_lt hlt]
  have hcount : min (dev.blockSize.toNat - start) len = len := by omega
  simp only [readAt]
  rw [if_neg hlong, dif_pos hsize, readBlocks, if_neg (by omega)]
  simp only [hdiv, hmod, hcount]
  rw [if_neg (Nat.not_le.mpr hin)]
  -- Nothing is left behind the first piece.
  have hrest : ∀ piece : Bytes, (piece ++ ·) <$>
      readBlocks dev fork hsize (pos + len) (len - len) = pure piece := by
    intro piece
    rw [Nat.sub_self, readBlocks, if_pos rfl, map_pure, List.append_nil]
  simp only [hrest, bind_pure]

end Fork

/-! ## What a read depends on -/

/-- Two devices, with blocks of one size, have the same to say about the blocks
with `P`. -/
structure Device.Agree (P : Nat → Prop) (dev dev' : Device) : Prop where
  blockSize_eq : dev'.blockSize = dev.blockSize
  fetch_eq : ∀ block, P block → dev'.fetch dev.blockSize block = dev.fetch dev.blockSize block

namespace Device.Agree

variable {dev dev' : Device} {P Q : Nat → Prop}

theorem mono (h : Agree P dev dev') (hQP : ∀ block, Q block → P block) : Agree Q dev dev' :=
  ⟨h.blockSize_eq, fun block hblock => h.fetch_eq block (hQP block hblock)⟩

theorem withBlock_eq {α : Type} (h : Agree P dev dev') {block : Nat} (hblock : P block)
    (use : Bytes → Except Error α) : dev'.withBlock block use = dev.withBlock block use := by
  rw [withBlock, withBlock, h.blockSize_eq, h.fetch_eq block hblock]

end Device.Agree

namespace Fork

variable {dev dev' : Device} {fork : Fork}

theorem readBlocks_congr (h : Device.Agree fork.extents.Covers dev dev')
    (hsize : 0 < dev.blockSize.toNat) (hsize' : 0 < dev'.blockSize.toNat) (pos len : Nat) :
    readBlocks dev' fork hsize' pos len = readBlocks dev fork hsize pos len := by
  fun_induction readBlocks dev fork hsize pos len with
  | case1 pos => rw [readBlocks, if_pos rfl]
  | case2 pos len hlen blockSize logicalBlock hout =>
    rw [readBlocks, if_neg hlen]
    simp only [h.blockSize_eq]
    rw [if_pos hout]
  | case3 pos len hlen blockSize logicalBlock hin ih =>
    rw [readBlocks, if_neg hlen]
    simp only [h.blockSize_eq]
    rw [if_neg hin]
    refine Run.bind_congr_of_ok fun extent hextent => ?_
    rw [result_resolve] at hextent
    rw [h.withBlock_eq (ExtentRecord.covers_of_resolve hextent)]
    exact Run.bind_congr_of_ok fun piece _ => congrArg _ ih

theorem readAt_congr (h : Device.Agree fork.extents.Covers dev dev') (pos len : Nat) :
    fork.readAt dev' pos len = fork.readAt dev pos len := by
  simp only [readAt]
  by_cases hsize : 0 < dev.blockSize.toNat
  · have hsize' : 0 < dev'.blockSize.toNat := h.blockSize_eq ▸ hsize
    rw [dif_pos hsize, dif_pos hsize', readBlocks_congr h hsize hsize']
  · have hsize' : ¬ 0 < dev'.blockSize.toNat := h.blockSize_eq ▸ hsize
    rw [dif_neg hsize, dif_neg hsize']

theorem readWhole_congr (h : Device.Agree fork.extents.Covers dev dev') (limit : Nat) :
    fork.readWhole dev' limit = fork.readWhole dev limit := by
  simp only [readWhole, readAt_congr h]

end Fork

end HfsPlus
