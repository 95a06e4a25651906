import HfsPlus.Proofs.Checked.Basic
import HfsPlus.Proofs.Fork.Read

/-!
# Reading a fork, checked

A read fills a buffer in place, and keeps count of the bytes that it has filled.
The place in the fork that comes next is a sum in 64 bits, and it fits because
the bytes asked for were found to lie in front of the fork's end (`readAt_eq`).
Within a block everything is kept in range by the block's size, which the
remainder is below and the block itself is not; and each round fills at least one
byte more, so that the rounds suffice (`fill_eq`).
-/

namespace HfsPlus

namespace Fork

variable {dev : Device} {fork : Fork} {pos len : Nat} {bytes : Bytes}

theorem length_le_of_readBlocks (hsize : 0 < dev.blockSize.toNat) : ∀ bytes : Bytes,
    (readBlocks dev fork hsize pos len).result = .ok bytes → bytes.length ≤ len := by
  fun_induction readBlocks dev fork hsize pos len with
  | case1 =>
    intro bytes h
    cases h
    exact Nat.zero_le _
  | case2 =>
    intro bytes h
    cases h
  | case3 pos len hlen blockSize logicalBlock hin ih =>
    intro bytes h
    rw [Run.result_bind] at h
    obtain ⟨extent, -, h⟩ := exists_of_bind_eq_ok h
    rw [Run.result_bind, result_withBlock] at h
    obtain ⟨piece, hpiece, h⟩ := exists_of_bind_eq_ok h
    obtain ⟨data, -, hpiece⟩ := exists_of_bind_eq_ok hpiece
    rw [Run.result_map] at h
    cases hrest : (readBlocks dev fork hsize _ _).result with
    | error e =>
      rw [hrest] at h
      cases h
    | ok rest =>
      rw [hrest] at h
      cases h
      cases hpiece
      have hrest := ih rest hrest
      rw [List.length_append, List.length_take]
      omega

/-- No more bytes are read than were asked for. -/
theorem length_le_of_readAt (h : (fork.readAt dev pos len).result = .ok bytes) :
    bytes.length ≤ len := by
  simp only [readAt] at h
  split at h
  · cases h
  · split at h
    · exact length_le_of_readBlocks _ bytes h
    · cases h

end Fork

/-- What comes of resolving a block, with a warning if the descriptors do not
reach so far. -/
def Fork.warned (logicalBlock : UInt32) : Except Error Extent → Run Extent
  | .error (.unsupported .overflowExtents) => do
    Run.note (.beyondExtentRecord logicalBlock)
    Run.fail (.unsupported .overflowExtents)
  | result => Run.ofExcept result

theorem Fork.resolve_eq_warned (fork : Fork) (logicalBlock : UInt32) :
    fork.resolve logicalBlock = warned logicalBlock (fork.extents.resolve logicalBlock) :=
  rfl

namespace Checked

/-! ## Resolving -/

/-- Goes through the descriptors that are left. The block lies `ahead` blocks behind the first
of theirs. -/
def resolveFrom (logicalBlock : UInt32) :
    List ExtentDescriptor → (ahead : Nat) → Checked Extent
  | [], _ => do
    Run.note (.beyondExtentRecord logicalBlock)
    Run.fail (.unsupported .overflowExtents)
  | d :: rest, ahead =>
    let count := d.blockCount.toNat
    if count = 0 then
      Run.fail .notFound
    else if ahead < count then
      -- A sum that does not fit is an error of the volume.
      match fit UInt32.size (d.startBlock.toNat + ahead) with
      | .error _ => Run.fail (.corrupted .extentOverrun)
      | .ok physicalStart => do
        let left ← sub count ahead
        return {
          logicalStart := logicalBlock
          physicalStart := .ofNat physicalStart
          count := .ofNat left }
    else do
      let ahead ← sub ahead count
      resolveFrom logicalBlock rest ahead

/-- The extent that a logical block of the fork lies in, from that block on. -/
def resolve (fork : Fork) (logicalBlock : UInt32) : Checked Extent :=
  resolveFrom logicalBlock fork.extents.toList logicalBlock.toNat

theorem resolveFrom_eq (logicalBlock : UInt32) (descriptors : List ExtentDescriptor) :
    ∀ ahead : UInt32, resolveFrom logicalBlock descriptors ahead.toNat =
      liftM (Fork.warned logicalBlock
        (ExtentRecord.resolveFrom logicalBlock descriptors ahead)) := by
  induction descriptors with
  | nil =>
    intro ahead
    rfl
  | cons d rest ih =>
    intro ahead
    rw [resolveFrom, ExtentRecord.resolveFrom]
    by_cases hzero : d.blockCount = 0
    · simp only [hzero, UInt32.toNat_zero, if_true]
      rfl
    · have hcount : ¬ d.blockCount.toNat = 0 := fun h => hzero (UInt32.toNat_inj.mp h)
      simp only [if_neg hzero, if_neg hcount, ← UInt32.lt_iff_toNat_lt]
      by_cases hahead : ahead < d.blockCount
      · have hle := Nat.le_of_lt (UInt32.lt_iff_toNat_lt.mp hahead)
        simp only [if_pos hahead, sub_eq_ok hle, liftM_ok_bind]
        by_cases hfits : d.startBlock.toNat + ahead.toNat < UInt32.size
        · rw [fit_eq_ok hfits, if_pos hfits]
          have hstart : UInt32.ofNat (d.startBlock.toNat + ahead.toNat) = d.startBlock + ahead := by
            rw [UInt32.ofNat_add, UInt32.ofNat_toNat, UInt32.ofNat_toNat]
          have hleft : UInt32.ofNat (d.blockCount.toNat - ahead.toNat) = d.blockCount - ahead := by
            rw [← UInt32.toNat_sub_of_le _ _ (UInt32.le_of_lt hahead), UInt32.ofNat_toNat]
          simp only [hstart, hleft]
          rfl
        · rw [fit, if_neg hfits, if_neg hfits]
          rfl
      · have hle := UInt32.le_iff_toNat_le.mp (UInt32.not_lt.mp hahead)
        rw [if_neg hahead, sub_eq_ok hle, liftM_ok_bind, if_neg hahead,
          ← UInt32.toNat_sub_of_le _ _ (UInt32.not_lt.mp hahead)]
        exact ih (ahead - d.blockCount)

theorem resolve_eq (fork : Fork) (logicalBlock : UInt32) :
    resolve fork logicalBlock = liftM (fork.resolve logicalBlock) := by
  rw [Fork.resolve_eq_warned]
  exact resolveFrom_eq logicalBlock _ logicalBlock

/-! ## Reading -/

/-- Copies bytes out of a block, from the one that stands at `place` in the fork
on, as many as there is room for behind the first `done` bytes of the buffer. -/
def copyBlock (blockSize place : Nat) (buf : Bytes) (done : Nat) (block : Bytes) :
    Except Trap (Bytes × Nat) := do
  let within ← rem place blockSize
  let inBlock ← sub blockSize within
  let inBuffer ← sub buf.length done
  let count := min inBlock inBuffer
  let stop ← add UInt64.size done count
  let piece ← slice block within (← add UInt64.size within count)
  return (← copyInto buf done stop piece, stop)

/-- Fills a buffer behind its first `done` bytes. -/
def fill (dev : Device) (fork : Fork) (pos : Nat) :
    (rounds : Nat) → (buf : Bytes) → (done : Nat) → Checked Bytes
  | 0, _, _ => throw .endless
  | rounds + 1, buf, done =>
    if done < buf.length then do
      let place ← add UInt64.size pos done
      let logicalBlock ← div place dev.blockSize.toNat
      if UInt32.size ≤ logicalBlock then
        Run.fail .notFound
      else
        let extent ← resolve fork (.ofNat logicalBlock)
        let (buf, done) ← withBlock dev extent.physicalStart.toNat
          (copyBlock dev.blockSize.toNat place buf done)
        fill dev fork pos rounds buf done
    else
      return buf

/-- Fills a buffer from byte `pos` of the fork on. -/
def readAt (dev : Device) (fork : Fork) (pos : Nat) (buf : Bytes) : Checked Bytes :=
  let available := fork.size.toNat - pos
  if available < buf.length then
    Run.fail (.shortRead buf.length available)
  else if dev.blockSize = 0 then
    Run.fail (.corrupted .zeroBlockSize)
  else
    fill dev fork pos (buf.length + 1) buf 0

/-- Reads all of a fork that has no more than `limit` bytes. -/
def readWhole (dev : Device) (fork : Fork) (limit : Nat) : Checked Bytes :=
  let size := fork.size.toNat
  if limit < size then
    Run.fail (.corrupted (.forkTooLong size limit))
  else if Fork.maxBuffer < size then
    Run.fail .outOfMemory
  else
    readAt dev fork 0 (List.replicate size 0)

section CopyBlock

variable {blockSize : Nat} {block : Bytes}

/-- The part of the block that goes into the buffer is as long as both allow. -/
theorem length_piece (hsize : 0 < blockSize) (hblock : blockSize ≤ block.length)
    (place : Nat) (buf : Bytes) (done : Nat) :
    ((block.drop (place % blockSize)).take
      (min (blockSize - place % blockSize) (buf.length - done))).length =
      min (blockSize - place % blockSize) (buf.length - done) := by
  have hwithin := Nat.mod_lt place hsize
  rw [List.length_take, List.length_drop]
  omega

theorem copyBlock_eq_ok (hsize : 0 < blockSize) (hblock : blockSize ≤ block.length)
    (hword : blockSize < UInt64.size) {place done : Nat} {buf piece : Bytes}
    (hdone : done ≤ buf.length) (hbuf : buf.length < UInt64.size)
    (hpiece : (block.drop (place % blockSize)).take
      (min (blockSize - place % blockSize) (buf.length - done)) = piece) :
    copyBlock blockSize place buf done block =
      .ok (overwrite buf done piece, done + piece.length) := by
  have hwithin := Nat.mod_lt place hsize
  have hlength : piece.length = min (blockSize - place % blockSize) (buf.length - done) :=
    hpiece ▸ length_piece hsize hblock place buf done
  have hslice : slice block (place % blockSize) (place % blockSize + piece.length) =
      .ok piece := by
    rw [slice_eq_ok (Nat.le_add_right _ _) (by omega), List.extract_eq_take_drop,
      Nat.add_sub_cancel_left, hlength, hpiece]
  simp only [copyBlock, rem_eq_ok hsize, sub_eq_ok (Nat.le_of_lt hwithin), sub_eq_ok hdone,
    ok_bind]
  rw [← hlength, add_eq_ok (by omega), ok_bind, add_eq_ok (by omega), ok_bind, hslice, ok_bind,
    copyInto_eq_ok (by omega)]
  rfl

end CopyBlock

/-- What is behind the first `done` bytes of the buffer is what is read. -/
theorem fill_eq {dev : Device} {fork : Fork} (hsize : 0 < dev.blockSize.toNat) {pos : Nat} :
    ∀ {rounds : Nat} {buf : Bytes} {done : Nat}, pos + buf.length < UInt64.size →
      done ≤ buf.length → buf.length - done < rounds →
      fill dev fork pos rounds buf done = liftM ((buf.take done ++ ·) <$>
        Fork.readBlocks dev fork hsize (pos + done) (buf.length - done)) := by
  intro rounds
  induction rounds with
  | zero =>
    intro buf done hfits hdone hrounds
    exact absurd hrounds (Nat.not_lt_zero _)
  | succ rounds ih =>
    intro buf done hfits hdone hrounds
    rw [fill, Fork.readBlocks]
    by_cases hlt : done < buf.length
    · have hmod := Nat.mod_lt (pos + done) hsize
      have hword : dev.blockSize.toNat < UInt64.size :=
        Nat.lt_trans dev.blockSize.toNat_lt (by decide)
      rw [if_pos hlt, if_neg (by omega), add_eq_ok (by omega), liftM_ok_bind, div_eq_ok hsize,
        liftM_ok_bind]
      simp only []
      by_cases hblock : UInt32.size ≤ (pos + done) / dev.blockSize.toNat
      · rw [if_pos hblock, if_pos hblock]
        rfl
      · rw [if_neg hblock, if_neg hblock, resolve_eq, map_bind]
        refine bind_eq_liftM fun extent _ => ?_
        rw [map_bind]
        refine withBlock_bind_eq_liftM fun data hdata => ?_
        have hlength := length_piece hsize hdata (pos + done) buf done
        generalize hpiece : (data.drop ((pos + done) % dev.blockSize.toNat)).take
          (min (dev.blockSize.toNat - (pos + done) % dev.blockSize.toNat) (buf.length - done)) =
          piece at hlength
        refine ⟨_, piece, copyBlock_eq_ok hsize hdata hword hdone (by omega) hpiece, rfl, ?_⟩
        -- The buffer is as long as before, and begins with what was there and the piece.
        have hfilled : (overwrite buf done piece).length = buf.length :=
          length_overwrite (by omega)
        rw [← hlength]
        simp only []
        rw [ih (by omega) (by omega) (by omega), hfilled, take_overwrite hdone, ← Nat.add_assoc,
          ← Nat.sub_sub, Functor.map_map]
        simp only [List.append_assoc]
    · have hall : buf.length - done = 0 := by omega
      rw [if_neg hlt, if_pos hall, List.take_of_length_le (Nat.not_lt.mp hlt)]
      simp

/-- A read fills its buffer with what is read, or ends in the same error. -/
theorem readAt_eq (dev : Device) (fork : Fork) {pos : Nat} (hpos : pos < UInt64.size)
    (buf : Bytes) : readAt dev fork pos buf = liftM (fork.readAt dev pos buf.length) := by
  simp only [readAt, Fork.readAt]
  split
  · rfl
  · next hlong =>
    by_cases hzero : dev.blockSize = 0
    · rw [if_pos hzero, dif_neg (by simp [hzero])]
      rfl
    · have hsize : 0 < dev.blockSize.toNat :=
        UInt32.lt_iff_toNat_lt.mp (UInt32.pos_iff_ne_zero.mpr hzero)
      have hend : fork.size.toNat < UInt64.size := fork.size.toNat_lt
      rw [if_neg hzero, dif_pos hsize, fill_eq hsize (by omega) (Nat.zero_le _) (by omega)]
      simp

theorem readWhole_eq (dev : Device) (fork : Fork) (limit : Nat) :
    readWhole dev fork limit = liftM (fork.readWhole dev limit) := by
  simp only [readWhole, Fork.readWhole]
  split
  · rfl
  · split
    · rfl
    · rw [readAt_eq dev fork (by decide), List.length_replicate]

end Checked

end HfsPlus
