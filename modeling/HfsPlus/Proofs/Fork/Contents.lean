import HfsPlus.Proofs.Fork.Read

/-!
# The bytes of a fork

Where a byte of a fork is to be had takes three steps: its block, the physical
block that the extents put it in, and its place there. `Fork.byte?` is that and
knows nothing of reading. A read comes to the same bytes whatever pieces the
blocks cut it into (`result_readBlocks_of_bytes`), so a fork whose bytes can all
be had is read like a string, of which the blocks and the extents are no longer
part: that is `result_readAt_of_stores`.
-/

namespace HfsPlus.Fork

variable {dev : Device} {fork : Fork} {content : Bytes}

/-- The byte at a place of the fork, if it can be had, whether or not the fork
is that long. -/
def byte? (dev : Device) (fork : Fork) (pos : Nat) : Option UInt8 :=
  let block := pos / dev.blockSize.toNat
  if block < UInt32.size then
    match fork.extents.resolve (UInt32.ofNat block) with
    | .ok extent =>
      match (dev.block extent.physicalStart.toNat).result with
      | .ok data => data[pos % dev.blockSize.toNat]?
      | .error _ => none
    | .error _ => none
  else
    none

/-- The fork is as long as this string, and its bytes are those of the string. -/
structure Stores (dev : Device) (fork : Fork) (content : Bytes) : Prop where
  blockSize_pos : 0 < dev.blockSize.toNat
  size_eq : fork.size.toNat = content.length
  byte?_eq : ∀ pos < content.length, fork.byte? dev pos = content[pos]?

/-! ## The bytes of a block -/

theorem exists_block_of_byte? {pos : Nat} {b : UInt8} (h : fork.byte? dev pos = some b) :
    pos / dev.blockSize.toNat < UInt32.size ∧
    ∃ extent, fork.extents.resolve (UInt32.ofNat (pos / dev.blockSize.toNat)) = .ok extent ∧
      ∃ data, (dev.block extent.physicalStart.toNat).result = .ok data := by
  rw [byte?] at h
  split at h
  · next hblock =>
    split at h
    · next extent hextent =>
      split at h
      · next data hdata => exact ⟨hblock, extent, hextent, data, hdata⟩
      · cases h
    · cases h
  · cases h

/-- The bytes of one block of the fork stand in one block of the device. -/
theorem byte?_of_block {block : Nat} (hblock : block < UInt32.size) {extent : Extent}
    (hextent : fork.extents.resolve (UInt32.ofNat block) = .ok extent) {data : Bytes}
    (hdata : (dev.block extent.physicalStart.toNat).result = .ok data) {pos : Nat}
    (hpos : pos / dev.blockSize.toNat = block) :
    fork.byte? dev pos = data[pos % dev.blockSize.toNat]? := by
  subst hpos
  simp only [byte?, if_pos hblock, hextent, hdata]

/-- A place not far behind another lies in the same block. -/
theorem div_mod_add_of_lt {n pos i : Nat} (h : pos % n + i < n) :
    (pos + i) / n = pos / n ∧ (pos + i) % n = pos % n + i := by
  have hpos := Nat.div_add_mod pos n
  have hsum : pos + i = n * (pos / n) + (pos % n + i) := by omega
  rw [hsum]
  exact ⟨by rw [Nat.mul_add_div (by omega), Nat.div_eq_of_lt h, Nat.add_zero],
    by rw [Nat.mul_add_mod, Nat.mod_eq_of_lt h]⟩

theorem firstPiece_eq_take {pos len : Nat} {data bytes : Bytes}
    (hbytes : ∀ i < len, fork.byte? dev (pos + i) = bytes[i]?)
    (hdata : ∀ i, pos % dev.blockSize.toNat + i < dev.blockSize.toNat →
      fork.byte? dev (pos + i) = data[pos % dev.blockSize.toNat + i]?) :
    (data.drop (pos % dev.blockSize.toNat)).take (firstPiece dev pos len) =
      bytes.take (firstPiece dev pos len) := by
  have hpiece : firstPiece dev pos len =
    min (dev.blockSize.toNat - pos % dev.blockSize.toNat) len := rfl
  ext1 i
  rw [List.getElem?_take, List.getElem?_take]
  by_cases hi : i < firstPiece dev pos len
  · rw [if_pos hi, if_pos hi, List.getElem?_drop, ← hdata i (by omega), hbytes i (by omega)]
  · rw [if_neg hi, if_neg hi]

/-! ## Reading them -/

/-- A read whose bytes can all be had answers with these bytes. -/
theorem result_readBlocks_of_bytes (hsize : 0 < dev.blockSize.toNat) {pos : Nat}
    {bytes : Bytes} (h : ∀ i < bytes.length, fork.byte? dev (pos + i) = bytes[i]?) :
    (readBlocks dev fork hsize pos bytes.length).result = .ok bytes := by
  induction hlen : bytes.length using Nat.strongRecOn generalizing pos bytes with
  | ind len ih =>
    subst hlen
    by_cases hempty : bytes.length = 0
    · rw [readBlocks, if_pos hempty, List.eq_nil_of_length_eq_zero hempty]
      rfl
    have hfirst : fork.byte? dev pos = some bytes[0] := by
      rw [← Nat.add_zero pos, h 0 (by omega), List.getElem?_eq_getElem (by omega)]
    obtain ⟨hblock, extent, hextent, data, hdata⟩ := exists_block_of_byte? hfirst
    have hplace : ∀ i, pos % dev.blockSize.toNat + i < dev.blockSize.toNat →
        fork.byte? dev (pos + i) = data[pos % dev.blockSize.toNat + i]? := by
      intro i hi
      obtain ⟨hdiv, hmod⟩ := div_mod_add_of_lt hi
      rw [byte?_of_block hblock hextent hdata hdiv, hmod]
    have hpiece := firstPiece_eq_take h hplace
    have hmod := Nat.mod_lt pos hsize
    have hcount : firstPiece dev pos bytes.length =
      min (dev.blockSize.toNat - pos % dev.blockSize.toNat) bytes.length := rfl
    -- Behind its first piece the read is one of fewer bytes, at the next block.
    have hrest : (readBlocks dev fork hsize (pos + firstPiece dev pos bytes.length)
        (bytes.length - firstPiece dev pos bytes.length)).result =
          .ok (bytes.drop (firstPiece dev pos bytes.length)) := by
      refine ih _ (by omega) (fun i hi => ?_) List.length_drop
      rw [List.length_drop] at hi
      rw [Nat.add_assoc, h _ (by omega), List.getElem?_drop]
    rw [result_readBlocks_of_lt hsize hempty hblock, hextent]
    simp only [Except.bind, hdata, hpiece, hrest]
    exact congrArg Except.ok (List.take_append_drop _ _)

/-- Reading from a fork that stores a string is reading from the string. -/
theorem result_readAt_of_stores (h : fork.Stores dev content) (pos len : Nat) :
    (fork.readAt dev pos len).result =
      if content.length - pos < len then .error (.shortRead len (content.length - pos))
      else .ok ((content.drop pos).take len) := by
  simp only [readAt, h.size_eq, dif_pos h.blockSize_pos]
  split
  · rfl
  · next hlong =>
    have hlength : ((content.drop pos).take len).length = len := by
      rw [List.length_take, List.length_drop]
      omega
    have hbytes : ∀ i < ((content.drop pos).take len).length,
        fork.byte? dev (pos + i) = ((content.drop pos).take len)[i]? := by
      intro i hi
      rw [hlength] at hi
      rw [List.getElem?_take, if_pos hi, List.getElem?_drop, h.byte?_eq _ (by omega)]
    have hread := result_readBlocks_of_bytes h.blockSize_pos hbytes
    rw [hlength] at hread
    exact hread

end HfsPlus.Fork
