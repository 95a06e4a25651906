import HfsPlus.Proofs.Fork.Image

/-!
# Where the reading of a fork ends

Whether a block of a fork can be read does not depend on the read that wants it.
So if a fork cannot be read as a whole, it has a first block that cannot be had
(`FirstFailure`), and every other read of the fork is told by it: one that stays
in front of that block succeeds, and one that runs into it fails as the block
does.
-/

namespace HfsPlus.Fork

variable {dev : Device} {fork : Fork} {pos len block : Nat} {e : Error}

/-! ## Blocks of a range, in order -/

theorem mem_blocksOf_of_lt {size : Nat} (hfirst : pos / size ≤ block)
    (hlast : block * size < pos + len) (hlen : len ≠ 0) (hsize : 0 < size) :
    block ∈ blocksOf size pos len := by
  have hle : block ≤ (pos + len - 1) / size := (Nat.le_div_iff_mul_le hsize).mpr (by omega)
  rw [blocksOf, if_neg hlen, List.mem_range'_1]
  omega

theorem pairwise_blocksOf (size pos len : Nat) : (blocksOf size pos len).Pairwise (· < ·) := by
  rw [blocksOf]
  split
  · exact .nil
  · exact List.pairwise_lt_range'

/-- The blocks of a range in front of one of them have smaller numbers, and no others
have. -/
theorem mem_before_iff {size : Nat} {before after : List Nat}
    (h : blocksOf size pos len = before ++ block :: after) {earlier : Nat} :
    earlier ∈ before ↔ earlier ∈ blocksOf size pos len ∧ earlier < block := by
  have hsorted := pairwise_blocksOf size pos len
  rw [h, List.pairwise_append, List.pairwise_cons] at hsorted
  obtain ⟨-, ⟨hafter, -⟩, hbefore⟩ := hsorted
  rw [h, List.mem_append, List.mem_cons]
  constructor
  · exact fun hmem => ⟨.inl hmem, hbefore _ hmem _ List.mem_cons_self⟩
  · rintro ⟨hmem | rfl | hmem, hlt⟩
    · exact hmem
    · exact absurd hlt (Nat.lt_irrefl _)
    · exact absurd hlt (Nat.lt_asymm (hafter _ hmem))

/-! ## A part of a read -/

theorem le_of_readAt {bytes : Bytes} (h : (fork.readAt dev pos len).result = .ok bytes) :
    len ≤ fork.size.toNat - pos := by
  simp only [readAt] at h
  split at h
  · cases h
  · next hfits => exact Nat.not_lt.mp hfits

/-- What can be read at once can be read in two parts. -/
theorem readAt_append (hsize : 0 < dev.blockSize.toNat) {front rest : Bytes}
    (h : (fork.readAt dev pos (front.length + rest.length)).result = .ok (front ++ rest)) :
    (fork.readAt dev pos front.length).result = .ok front ∧
      (fork.readAt dev (pos + front.length) rest.length).result = .ok rest := by
  have hfits := le_of_readAt h
  obtain ⟨-, hplaces⟩ := bytes_of_readAt h
  constructor
  · rw [readAt_of_fits (by omega) hsize, result_readBlocks_eq_ok_iff hsize]
    refine ⟨rfl, fun i hi => ?_⟩
    rw [hplaces i (by omega), List.getElem?_append_left hi]
  · rw [readAt_of_fits (by omega) hsize, result_readBlocks_eq_ok_iff hsize]
    refine ⟨rfl, fun i hi => ?_⟩
    rw [Nat.add_assoc, hplaces _ (by omega), List.getElem?_append_right (by omega),
      Nat.add_sub_cancel_left]

/-! ## The first block that cannot be read -/

/-- The fork can be read up to this block of it, which cannot be read for this
reason. -/
structure FirstFailure (dev : Device) (fork : Fork) (block : Nat) (e : Error) : Prop where
  lt_size : block * dev.blockSize.toNat < fork.size.toNat
  readable : ∀ earlier < block, ∃ data, (fork.readBlock dev earlier).result = .ok data
  failed : (fork.readBlock dev block).result = .error e

namespace FirstFailure

theorem readAt_of_le (h : FirstFailure dev fork block e) (hsize : 0 < dev.blockSize.toNat)
    (hle : pos + len ≤ block * dev.blockSize.toNat) :
    ∃ bytes, (fork.readAt dev pos len).result = .ok bytes := by
  have hlt := h.lt_size
  refine (readAt_of_readable hsize (by omega) fun earlier hmem => h.readable earlier ?_).1
  exact Nat.lt_of_mul_lt_mul_right (Nat.lt_of_lt_of_le (mem_blocksOf hmem) hle)

theorem readAt_of_lt (h : FirstFailure dev fork block e) (hsize : 0 < dev.blockSize.toNat)
    (hfits : len ≤ fork.size.toNat - pos) (hfrom : pos ≤ block * dev.blockSize.toNat)
    (hto : block * dev.blockSize.toNat < pos + len) :
    (fork.readAt dev pos len).result = .error e := by
  have hfirst : pos / dev.blockSize.toNat ≤ block :=
    Nat.div_le_of_le_mul (Nat.mul_comm block _ ▸ hfrom)
  obtain ⟨before, after, hblocks⟩ :=
    List.append_of_mem (mem_blocksOf_of_lt hfirst hto (by omega) hsize)
  have hbefore : ∀ earlier ∈ before, ∃ data, (fork.readBlock dev earlier).result = .ok data :=
    fun earlier hearlier => h.readable earlier ((mem_before_iff hblocks).mp hearlier).2
  exact (readAt_of_unreadable hsize hfits hblocks hbefore h.failed).1

end FirstFailure

theorem exists_firstFailure (hsize : 0 < dev.blockSize.toNat)
    (h : (fork.readAt dev 0 fork.size.toNat).result = .error e) :
    ∃ block, FirstFailure dev fork block e := by
  rw [readAt_of_fits (by omega) hsize] at h
  obtain ⟨before, block, after, hblocks, hbefore, hblock⟩ := exists_first_of_readBlocks h
  have hlt : block * dev.blockSize.toNat < 0 + fork.size.toNat :=
    mem_blocksOf (hblocks ▸ List.mem_append_right before List.mem_cons_self)
  refine ⟨block, by omega, fun earlier hearlier => hbefore earlier ?_, hblock⟩
  -- The range begins with the fork, so it has all blocks before this one.
  have hstart := Nat.mul_le_mul_right dev.blockSize.toNat (Nat.le_of_lt hearlier)
  have hmem : earlier ∈ blocksOf dev.blockSize.toNat 0 fork.size.toNat :=
    mem_blocksOf_of_lt (by rw [Nat.zero_div]; exact Nat.zero_le _) (by omega) (by omega) hsize
  exact (mem_before_iff hblocks).mpr ⟨hmem, hearlier⟩

end HfsPlus.Fork
