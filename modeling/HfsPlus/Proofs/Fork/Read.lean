import HfsPlus.Fork.Read
import HfsPlus.Proofs.Device.Reads
import HfsPlus.Proofs.Extent.Resolve

/-!
# When a read of a fork is not found

A read goes through its blocks in order and stops at the first that it cannot
have. `Fork.Readable` is a block that it can have, resolved and handed out
whole. The one other thing it can meet without the device failing or the
extents being damaged is a block that the fork has no place for, because its
extents end before it or because its number is out of range, and then the read
answers that nothing was found: `result_readAt_eq_notFound_iff` says so
exactly. The fork may still be long enough, by its length in bytes, to have
those bytes.
-/

namespace HfsPlus.Fork

variable {dev : Device} {fork : Fork}

/-- The fork has no place for this block. -/
def EndsBefore (fork : Fork) (block : Nat) : Prop :=
  UInt32.size ≤ block ∨ fork.extents.EndsBefore block

/-- This block of the fork can be read. -/
def Readable (dev : Device) (fork : Fork) (block : Nat) : Prop :=
  block < UInt32.size ∧ ∃ extent, fork.extents.resolve (UInt32.ofNat block) = .ok extent ∧
    ∃ data, (dev.block extent.physicalStart.toNat).result = .ok data

/-- The first block of these bytes that cannot be read is one that the fork has
no place for. -/
def RunsOut (dev : Device) (fork : Fork) (pos len : Nat) : Prop :=
  ∃ block, pos / dev.blockSize.toNat ≤ block ∧
    block * dev.blockSize.toNat < pos + len ∧ fork.EndsBefore block ∧
    ∀ earlier, pos / dev.blockSize.toNat ≤ earlier → earlier < block →
      fork.Readable dev earlier

theorem result_resolve (fork : Fork) (logicalBlock : UInt32) :
    (fork.resolve logicalBlock).result = fork.extents.resolve logicalBlock := by
  rw [resolve]
  split
  · next h =>
    rw [h]
    rfl
  · rfl

theorem resolve_eq_notFound_iff {block : Nat} (hblock : block < UInt32.size) :
    fork.extents.resolve (UInt32.ofNat block) = .error .notFound ↔
      fork.EndsBefore block := by
  rw [ExtentRecord.resolve_eq_notFound_iff, UInt32.toNat_ofNat_of_lt' hblock]
  constructor
  · exact .inr
  · rintro (h | h)
    · omega
    · exact h

theorem Readable.not_endsBefore {block : Nat} (h : fork.Readable dev block) :
    ¬ fork.EndsBefore block := by
  obtain ⟨hblock, extent, hextent, -⟩ := h
  intro hends
  rw [(resolve_eq_notFound_iff hblock).mpr hends] at hextent
  cases hextent

/-! ## One block -/

theorem result_withBlock {α : Type} (dev : Device) (block : Nat)
    (use : Bytes → Except Error α) :
    (dev.withBlock block use).result = (dev.block block).result.bind use := by
  rw [Device.block, Device.withBlock, Device.withBlock]
  cases dev.fetch dev.blockSize block with
  | error fault => rfl
  | ok data =>
    show (if _ then _ else _) = Except.bind (if _ then _ else _) _
    split <;> rfl

/-- A block that the device does not hand out is not an absent one. -/
theorem result_block_ne_notFound (dev : Device) (block : Nat) :
    (dev.block block).result ≠ .error .notFound := by
  intro h
  rcases Device.error_of_block h with ⟨fault, hfault⟩ | ⟨available, hshort⟩
  · cases hfault
  · cases hshort

/-- The part of a read that lies in its first block. -/
def firstPiece (dev : Device) (pos len : Nat) : Nat :=
  min (dev.blockSize.toNat - pos % dev.blockSize.toNat) len

theorem result_readBlocks_of_lt (hsize : 0 < dev.blockSize.toNat) {pos len : Nat}
    (hlen : len ≠ 0) (hblock : pos / dev.blockSize.toNat < UInt32.size) :
    (readBlocks dev fork hsize pos len).result =
      (fork.extents.resolve (UInt32.ofNat (pos / dev.blockSize.toNat))).bind fun extent =>
        (dev.block extent.physicalStart.toNat).result.bind fun data =>
          ((data.drop (pos % dev.blockSize.toNat)).take (firstPiece dev pos len) ++ ·) <$>
            (readBlocks dev fork hsize (pos + firstPiece dev pos len)
              (len - firstPiece dev pos len)).result := by
  rw [readBlocks, if_neg hlen]
  simp only []
  rw [if_neg (Nat.not_le.mpr hblock), Run.result_bind, result_resolve]
  congr 1
  funext extent
  rw [Run.result_bind, result_withBlock]
  cases (dev.block extent.physicalStart.toNat).result <;> rfl

/-- A block that can be read is put in front of the rest. -/
theorem result_readBlocks_of_readable (hsize : 0 < dev.blockSize.toNat) {pos len : Nat}
    (hlen : len ≠ 0) (h : fork.Readable dev (pos / dev.blockSize.toNat)) :
    ∃ piece, (readBlocks dev fork hsize pos len).result =
      (piece ++ ·) <$> (readBlocks dev fork hsize (pos + firstPiece dev pos len)
        (len - firstPiece dev pos len)).result := by
  obtain ⟨hblock, extent, hextent, data, hdata⟩ := h
  refine ⟨(data.drop (pos % dev.blockSize.toNat)).take (firstPiece dev pos len), ?_⟩
  rw [result_readBlocks_of_lt hsize hlen hblock, hextent]
  simp only [Except.bind, hdata]

/-- One that cannot ends the read, which finds nothing only if the fork has no
place for it. -/
theorem result_readBlocks_of_not_readable (hsize : 0 < dev.blockSize.toNat)
    {pos len : Nat} (hlen : len ≠ 0)
    (h : ¬ fork.Readable dev (pos / dev.blockSize.toNat)) :
    (readBlocks dev fork hsize pos len).result = .error .notFound ↔
      fork.EndsBefore (pos / dev.blockSize.toNat) := by
  by_cases hblock : pos / dev.blockSize.toNat < UInt32.size
  · rw [result_readBlocks_of_lt hsize hlen hblock, ← resolve_eq_notFound_iff hblock]
    cases hresolve : fork.extents.resolve
        (UInt32.ofNat (pos / dev.blockSize.toNat)) with
    | error e => simp [Except.bind]
    | ok extent =>
      refine iff_of_false ?_ (by simp)
      cases hdata : (dev.block extent.physicalStart.toNat).result with
      | error e =>
        simp only [Except.bind, hdata]
        exact hdata ▸ result_block_ne_notFound dev extent.physicalStart.toNat
      | ok data => exact absurd ⟨hblock, extent, hresolve, data, hdata⟩ h
  · have hout := Nat.not_lt.mp hblock
    rw [readBlocks, if_neg hlen]
    simp only []
    rw [if_pos hout]
    exact iff_of_true rfl (.inl hout)

/-! ## The whole read -/

/-- The first block of a read is either the one that it stops at or read. -/
theorem RunsOut.first {pos len : Nat} (h : fork.RunsOut dev pos len) :
    fork.EndsBefore (pos / dev.blockSize.toNat) ∨
      fork.Readable dev (pos / dev.blockSize.toNat) := by
  obtain ⟨block, hfrom, -, hends, hearlier⟩ := h
  rcases Nat.lt_or_eq_of_le hfrom with hlt | heq
  · exact .inr (hearlier _ (Nat.le_refl _) hlt)
  · exact .inl (heq ▸ hends)

theorem RunsOut.of_first {pos len : Nat} (hlen : len ≠ 0)
    (h : fork.EndsBefore (pos / dev.blockSize.toNat)) : fork.RunsOut dev pos len := by
  refine ⟨pos / dev.blockSize.toNat, Nat.le_refl _, ?_, h, fun earlier hle hlt => ?_⟩
  · have := Nat.div_mul_le_self pos dev.blockSize.toNat
    omega
  · omega

/-- Behind a first block that can be read, a read runs out where the rest of it
does. -/
theorem runsOut_iff_of_readable (hsize : 0 < dev.blockSize.toNat) {pos len : Nat}
    (h : fork.Readable dev (pos / dev.blockSize.toNat)) :
    fork.RunsOut dev pos len ↔ len - firstPiece dev pos len ≠ 0 ∧
      fork.RunsOut dev (pos + firstPiece dev pos len) (len - firstPiece dev pos len) := by
  have hpiece : firstPiece dev pos len =
    min (dev.blockSize.toNat - pos % dev.blockSize.toNat) len := rfl
  have hpos := Nat.div_add_mod' pos dev.blockSize.toNat
  have hmod := Nat.mod_lt pos hsize
  have hsucc : (pos / dev.blockSize.toNat + 1) * dev.blockSize.toNat =
      pos / dev.blockSize.toNat * dev.blockSize.toNat + dev.blockSize.toNat :=
    Nat.succ_mul _ _
  -- With bytes left over, the rest begins at the next block.
  have hnext : len - firstPiece dev pos len ≠ 0 →
      (pos + firstPiece dev pos len) / dev.blockSize.toNat =
        pos / dev.blockSize.toNat + 1 := by
    intro hrest
    have hstart : pos + firstPiece dev pos len =
        (pos / dev.blockSize.toNat + 1) * dev.blockSize.toNat := by
      omega
    rw [hstart, Nat.mul_div_cancel _ hsize]
  constructor
  · rintro ⟨block, hfrom, hto, hends, hearlier⟩
    have hne : pos / dev.blockSize.toNat ≠ block := by
      rintro rfl
      exact h.not_endsBefore hends
    have hle : (pos / dev.blockSize.toNat + 1) * dev.blockSize.toNat ≤
        block * dev.blockSize.toNat :=
      Nat.mul_le_mul_right _ (by omega)
    have hrest : len - firstPiece dev pos len ≠ 0 := by omega
    refine ⟨hrest, block, ?_, by omega, hends, fun earlier hge hlt => ?_⟩
    · rw [hnext hrest]
      omega
    · rw [hnext hrest] at hge
      exact hearlier earlier (by omega) hlt
  · rintro ⟨hrest, block, hfrom, hto, hends, hearlier⟩
    rw [hnext hrest] at hfrom hearlier
    refine ⟨block, by omega, by omega, hends, fun earlier hge hlt => ?_⟩
    rcases Nat.lt_or_eq_of_le hge with hgt | rfl
    · exact hearlier earlier hgt hlt
    · exact h

theorem result_readBlocks_eq_notFound_iff (hsize : 0 < dev.blockSize.toNat) {pos len : Nat} :
    (readBlocks dev fork hsize pos len).result = .error .notFound ↔
      len ≠ 0 ∧ fork.RunsOut dev pos len := by
  induction len using Nat.strongRecOn generalizing pos with
  | ind len ih =>
    by_cases hlen : len = 0
    · rw [readBlocks, if_pos hlen]
      exact iff_of_false (by simp) fun h => h.1 hlen
    by_cases hreadable : fork.Readable dev (pos / dev.blockSize.toNat)
    · have hmod := Nat.mod_lt pos hsize
      have hshorter : len - firstPiece dev pos len < len := by
        rw [firstPiece]
        omega
      obtain ⟨piece, hresult⟩ := result_readBlocks_of_readable hsize hlen hreadable
      rw [hresult, runsOut_iff_of_readable hsize hreadable, ← ih _ hshorter,
        map_eq_error_iff]
      exact (and_iff_right hlen).symm
    · rw [result_readBlocks_of_not_readable hsize hlen hreadable]
      constructor
      · exact fun h => ⟨hlen, .of_first hlen h⟩
      · rintro ⟨-, h⟩
        exact h.first.resolve_right hreadable

/-- A read finds nothing if and only if the fork is long enough for it but runs
out of blocks. -/
theorem result_readAt_eq_notFound_iff {pos len : Nat} :
    (fork.readAt dev pos len).result = .error .notFound ↔
      0 < dev.blockSize.toNat ∧ len ≠ 0 ∧ pos + len ≤ fork.size.toNat ∧
        fork.RunsOut dev pos len := by
  simp only [readAt]
  split
  · next hshort =>
    refine iff_of_false (by simp) ?_
    rintro ⟨-, -, hfits, -⟩
    omega
  · next hlong =>
    split
    · next hsize =>
      rw [result_readBlocks_eq_notFound_iff hsize]
      constructor
      · rintro ⟨hlen, h⟩
        exact ⟨hsize, hlen, by omega, h⟩
      · rintro ⟨-, hlen, -, h⟩
        exact ⟨hlen, h⟩
    · next hzero => exact iff_of_false (by simp) fun h => hzero h.1

end HfsPlus.Fork
