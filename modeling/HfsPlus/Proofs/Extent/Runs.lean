import HfsPlus.Proofs.Checked.Fork
import Mathlib.Data.List.TakeWhile

/-!
# The runs that are found

Written out block by block, the descriptors in use are a list of physical
blocks, and a logical block is a place in it. Resolving a block never writes the
list out: it takes the counts off one after the other until it is inside a
descriptor. That is the same (`resolve_exact`), whatever the counts add up to,
because a count is taken off only where it has been found not to be too large.

What is found is more than a block, a run of so many blocks from there on.
Resolving checks that the first of them has a number, and the last one may have
none, so the run that is handed out need not be there to its end. Whether it is
can be told from its numbers (`usable_iff`).
-/

namespace HfsPlus

/-- The physical blocks of these descriptors, in order. -/
def physicalBlocks (descriptors : List ExtentDescriptor) : List Nat :=
  descriptors.flatMap fun d => List.range' d.startBlock.toNat d.blockCount.toNat

theorem length_physicalBlocks (descriptors : List ExtentDescriptor) :
    (physicalBlocks descriptors).length = blockTotal descriptors := by
  induction descriptors with
  | nil => rfl
  | cons d rest ih =>
    rw [physicalBlocks, List.flatMap_cons, List.length_append, List.length_range', ← physicalBlocks,
      ih, blockTotal]

namespace ExtentRecord

variable {extents : ExtentRecord} {block : UInt32} {before after : List ExtentDescriptor}
  {d : ExtentDescriptor}

/-! ## The descriptor that holds a block -/

/-- This descriptor, behind these in front of it, holds the block with this
number. -/
structure Inside (before : List ExtentDescriptor) (d : ExtentDescriptor) (n : Nat) : Prop where
  from_le : blockTotal before ≤ n
  lt_to : n < blockTotal before + d.blockCount.toNat

theorem exists_inside {n : Nat} : ∀ {descriptors : List ExtentDescriptor},
    n < blockTotal descriptors →
    ∃ before d after, descriptors = before ++ d :: after ∧ Inside before d n := by
  intro descriptors
  induction descriptors generalizing n with
  | nil =>
    intro h
    cases h
  | cons first rest ih =>
    intro h
    rw [blockTotal] at h
    rcases Nat.lt_or_ge n first.blockCount.toNat with hin | hbehind
    · exact ⟨[], first, rest, rfl, by simp [blockTotal], by simpa [blockTotal] using hin⟩
    · have hrest : n - first.blockCount.toNat < blockTotal rest := by omega
      obtain ⟨before, d, after, rfl, hfrom, hto⟩ := ih hrest
      refine ⟨first :: before, d, after, rfl, ?_, ?_⟩ <;> rw [blockTotal] <;> omega

/-- Written out, the descriptors have this block of the descriptor there. -/
theorem Inside.getElem?_physicalBlocks {n : Nat} (h : Inside before d n)
    (after : List ExtentDescriptor) :
    (physicalBlocks (before ++ d :: after))[n]? =
      some (d.startBlock.toNat + (n - blockTotal before)) := by
  have hfrom := h.from_le
  have hto := h.lt_to
  have hlength : (before.flatMap fun d =>
      List.range' d.startBlock.toNat d.blockCount.toNat).length = blockTotal before :=
    length_physicalBlocks before
  rw [physicalBlocks, List.flatMap_append, List.getElem?_append_right (by omega), hlength,
    List.flatMap_cons, List.getElem?_append_left (by rw [List.length_range']; omega),
    List.getElem?_range' (by omega)]
  simp

/-! ## Resolving goes by the counts -/

/-- What there is to say about a block that lies so far inside a descriptor. -/
def foundIn (block : UInt32) (d : ExtentDescriptor) (inside : Nat) : Except Error Extent :=
  if d.startBlock.toNat + inside < UInt32.size then
    .ok {
      logicalStart := block
      physicalStart := .ofNat (d.startBlock.toNat + inside)
      count := .ofNat (d.blockCount.toNat - inside) }
  else
    .error (.corrupted .extentOverrun)

section FoundIn

variable {inside : Nat}

theorem foundIn_of_lt (h : d.startBlock.toNat + inside < UInt32.size) :
    foundIn block d inside =
      .ok ⟨block, .ofNat (d.startBlock.toNat + inside), .ofNat (d.blockCount.toNat - inside)⟩ :=
  if_pos h

theorem foundIn_of_le (h : UInt32.size ≤ d.startBlock.toNat + inside) :
    foundIn block d inside = .error (.corrupted .extentOverrun) :=
  if_neg (Nat.not_lt.mpr h)

theorem toNat_count (d : ExtentDescriptor) (inside : Nat) :
    (UInt32.ofNat (d.blockCount.toNat - inside)).toNat = d.blockCount.toNat - inside :=
  UInt32.toNat_ofNat_of_lt' (Nat.lt_of_le_of_lt (Nat.sub_le _ _) d.blockCount.toNat_lt)

end FoundIn

theorem resolveFrom_of_lt {ahead : UInt32} (hlt : ahead < d.blockCount) :
    resolveFrom block (d :: after) ahead = foundIn block d ahead.toNat := by
  have hused : d.blockCount ≠ 0 := by
    rintro hzero
    rw [hzero] at hlt
    exact UInt32.not_lt_zero hlt
  have hstart : UInt32.ofNat (d.startBlock.toNat + ahead.toNat) = d.startBlock + ahead := by
    rw [UInt32.ofNat_add, UInt32.ofNat_toNat, UInt32.ofNat_toNat]
  have hcount : UInt32.ofNat (d.blockCount.toNat - ahead.toNat) = d.blockCount - ahead := by
    rw [← UInt32.toNat_sub_of_le _ _ (UInt32.le_of_lt hlt), UInt32.ofNat_toNat]
  rw [resolveFrom, if_neg hused, if_pos hlt, foundIn, hstart, hcount]

/-- Descriptors that a block lies behind are passed by, and their blocks taken
off. -/
theorem resolveFrom_append (hused : ∀ d ∈ before, d.blockCount ≠ 0) {ahead : UInt32}
    (hle : blockTotal before ≤ ahead.toNat) :
    ∃ left : UInt32, left.toNat = ahead.toNat - blockTotal before ∧
      resolveFrom block (before ++ after) ahead = resolveFrom block after left := by
  induction before generalizing ahead with
  | nil => exact ⟨ahead, rfl, rfl⟩
  | cons first before ih =>
    obtain ⟨hfirst, hrest⟩ := List.forall_mem_cons.mp hused
    rw [blockTotal] at hle
    have hpast : first.blockCount ≤ ahead := UInt32.le_iff_toNat_le.mpr (by omega)
    have hleft := UInt32.toNat_sub_of_le _ _ hpast
    have hle' : blockTotal before ≤ (ahead - first.blockCount).toNat := by omega
    obtain ⟨left, hto, hresolve⟩ := ih hrest hle'
    refine ⟨left, by rw [hto, hleft, blockTotal]; omega, ?_⟩
    rw [List.cons_append, resolveFrom, if_neg hfirst, if_neg (UInt32.not_lt.mpr hpast), hresolve]

theorem blockCount_ne_zero_of_mem_inUse (h : d ∈ extents.inUse) : d.blockCount ≠ 0 := by
  simpa using List.mem_takeWhile_imp h

theorem inUse_eq_toList_iff :
    extents.inUse = extents.toList ↔ ∀ d ∈ extents.toList, d.blockCount ≠ 0 := by
  simp only [inUse, List.takeWhile_eq_self_iff, decide_eq_true_eq]

theorem resolve_of_inside (huse : extents.inUse = before ++ d :: after)
    (h : Inside before d block.toNat) :
    extents.resolve block = foundIn block d (block.toNat - blockTotal before) := by
  have hused : ∀ d ∈ before, d.blockCount ≠ 0 := fun d hd =>
    blockCount_ne_zero_of_mem_inUse (huse ▸ List.mem_append_left _ hd)
  have hrecord : extents.toList =
      before ++ d :: (after ++ extents.toList.dropWhile (·.blockCount ≠ 0)) := by
    have := List.takeWhile_append_dropWhile (p := (·.blockCount ≠ 0)) (l := extents.toList)
    rw [← inUse, huse, List.append_assoc, List.cons_append] at this
    exact this.symm
  obtain ⟨left, hleft, hresolve⟩ := resolveFrom_append hused h.from_le
  have hlt : left < d.blockCount := by
    have hto := h.lt_to
    have hfrom := h.from_le
    rw [UInt32.lt_iff_toNat_lt]
    omega
  rw [resolve, hrecord, hresolve, resolveFrom_of_lt hlt, hleft]

/-- A block behind the descriptors in use is in none of them: the fork ends
before it if the record has room left, and it may be in the overflow file if
not. -/
theorem resolve_of_le (h : blockTotal extents.inUse ≤ block.toNat) :
    ((∃ d ∈ extents.toList, d.blockCount = 0) → extents.resolve block = .error .notFound) ∧
    ((∀ d ∈ extents.toList, d.blockCount ≠ 0) →
      extents.resolve block = .error (.unsupported .overflowExtents)) := by
  constructor
  · rintro ⟨d, hd, hzero⟩
    have hne : extents.inUse ≠ extents.toList := fun heq =>
      inUse_eq_toList_iff.mp heq d hd hzero
    have hle : extents.inUse.length ≤ extents.toList.length :=
      (List.takeWhile_prefix _).length_le
    have hshort : extents.inUse.length ≠ extents.toList.length := fun heq =>
      hne ((List.takeWhile_prefix _).eq_of_length heq)
    rw [Vector.length_toList] at hle hshort
    exact resolve_eq_notFound_iff.mpr ⟨by omega, h⟩
  · intro hall
    rw [inUse_eq_toList_iff.mpr hall] at h
    obtain ⟨left, -, hresolve⟩ := @resolveFrom_append block extents.toList [] hall block h
    rw [List.append_nil] at hresolve
    rw [resolve, hresolve, resolveFrom]

/-- A block that the descriptors in use reach stands in one of them, so far inside
it as there are blocks in front of the block and not in the descriptors before;
and the run that is found is the rest of that descriptor from there on, provided
that its first block has a number. A block that they do not reach is not found, or
is called for from the overflow file if all eight are in use. The count that is
left never goes below zero. -/
theorem resolve_exact (extents : ExtentRecord) (block : UInt32) :
    (∀ before d after, extents.inUse = before ++ d :: after → Inside before d block.toNat →
      let inside := block.toNat - blockTotal before
      (physicalBlocks extents.inUse)[block.toNat]? = some (d.startBlock.toNat + inside) ∧
      (d.startBlock.toNat + inside < UInt32.size →
        ∃ extent, extents.resolve block = .ok extent ∧ extent.logicalStart = block ∧
          extent.physicalStart.toNat = d.startBlock.toNat + inside ∧
          extent.count.toNat = d.blockCount.toNat - inside) ∧
      (UInt32.size ≤ d.startBlock.toNat + inside →
        extents.resolve block = .error (.corrupted .extentOverrun))) ∧
    (block.toNat < blockTotal extents.inUse →
      ∃ before d after, extents.inUse = before ++ d :: after ∧ Inside before d block.toNat) ∧
    (blockTotal extents.inUse ≤ block.toNat →
      (physicalBlocks extents.inUse)[block.toNat]? = none ∧
      ((∃ d ∈ extents.toList, d.blockCount = 0) → extents.resolve block = .error .notFound) ∧
      ((∀ d ∈ extents.toList, d.blockCount ≠ 0) →
        extents.resolve block = .error (.unsupported .overflowExtents))) ∧
    ∀ size, Checked.resolve ⟨size, extents⟩ block = liftM (Fork.resolve ⟨size, extents⟩ block) := by
  refine ⟨fun before d after huse h => ?_, exists_inside, fun hle => ?_,
    fun size => Checked.resolve_eq _ block⟩
  · have hfound := resolve_of_inside huse h
    refine ⟨huse ▸ h.getElem?_physicalBlocks after, fun hfits => ?_, fun hover => ?_⟩
    · exact ⟨_, hfound.trans (foundIn_of_lt hfits), rfl, UInt32.toNat_ofNat_of_lt' hfits,
        toNat_count d _⟩
    · exact hfound.trans (foundIn_of_le hover)
  · have hnone : (physicalBlocks extents.inUse)[block.toNat]? = none := by
      rw [List.getElem?_eq_none_iff, length_physicalBlocks]
      exact hle
    exact ⟨hnone, resolve_of_le hle⟩

/-! ### A sample

Counts that add up to more blocks than there are numbers for; the last block of
the second run has none. -/

def crowdedExtents : ExtentRecord :=
  #v[⟨7, 0x80000000⟩, ⟨0xFFFFFFFE, 3⟩, ⟨0, 0xFFFFFFFF⟩, .unused, ⟨9, 1⟩, .unused, .unused, .unused]

theorem crowded_resolve_exact :
    (∃ extent, crowdedExtents.resolve 0x80000001 = .ok extent ∧
      extent.physicalStart.toNat = 0xFFFFFFFF ∧ extent.count.toNat = 2) ∧
    crowdedExtents.resolve 0x80000002 = .error (.corrupted .extentOverrun) := by
  have huse : crowdedExtents.inUse =
      [⟨7, 0x80000000⟩] ++ ⟨0xFFFFFFFE, 3⟩ :: [⟨0, 0xFFFFFFFF⟩] := by
    decide
  obtain ⟨hlast, -⟩ := resolve_exact crowdedExtents 0x80000001
  obtain ⟨-, hfound, -⟩ := hlast _ _ _ huse ⟨by decide, by decide⟩
  obtain ⟨extent, hextent, -, hstart, hcount⟩ := hfound (by decide)
  obtain ⟨hbehind, -⟩ := resolve_exact crowdedExtents 0x80000002
  obtain ⟨-, -, hover⟩ := hbehind _ _ _ huse ⟨by decide, by decide⟩
  exact ⟨⟨extent, hextent, hstart, hcount⟩, hover (by decide)⟩

/-! ## Further into a run -/

/-- Each block of the run that has a number is found where the run has it, with what
is left of the run. -/
def Usable (extents : ExtentRecord) (run : Extent) : Prop :=
  ∀ k < run.count.toNat, run.logicalStart.toNat + k < UInt32.size →
    ∃ rest, extents.resolve (.ofNat (run.logicalStart.toNat + k)) = .ok rest ∧
      rest.logicalStart.toNat = run.logicalStart.toNat + k ∧
      rest.physicalStart.toNat = run.physicalStart.toNat + k ∧
      rest.count.toNat = run.count.toNat - k

theorem lt_blockTotal_of_resolve {run : Extent} (h : extents.resolve block = .ok run) :
    block.toNat < blockTotal extents.inUse := by
  refine Nat.not_le.mp fun hle => ?_
  obtain ⟨hfree, hfull⟩ := resolve_of_le hle
  by_cases hall : ∀ d ∈ extents.toList, d.blockCount ≠ 0
  · cases h.symm.trans (hfull hall)
  · simp only [not_forall, not_not] at hall
    obtain ⟨d, hd, hzero⟩ := hall
    cases h.symm.trans (hfree ⟨d, hd, hzero⟩)

/-- A run that is found is the rest of a descriptor. -/
theorem exists_inside_of_resolve {run : Extent} (h : extents.resolve block = .ok run) :
    ∃ before d after, extents.inUse = before ++ d :: after ∧ Inside before d block.toNat ∧
      run.logicalStart = block ∧
      run.physicalStart.toNat = d.startBlock.toNat + (block.toNat - blockTotal before) ∧
      run.count.toNat = d.blockCount.toNat - (block.toNat - blockTotal before) := by
  obtain ⟨before, d, after, huse, hinside⟩ := exists_inside (lt_blockTotal_of_resolve h)
  have hfound := (resolve_of_inside huse hinside).symm.trans h
  rcases Nat.lt_or_ge (d.startBlock.toNat + (block.toNat - blockTotal before)) UInt32.size with
    hfits | hover
  · rw [foundIn_of_lt hfits] at hfound
    cases hfound
    exact ⟨before, d, after, huse, hinside, rfl, UInt32.toNat_ofNat_of_lt' hfits,
      toNat_count d _⟩
  · rw [foundIn_of_le hover] at hfound
    cases hfound

/-- A block further into a run that was found is found where the run has it, if it
has a number there. -/
theorem resolve_ahead {run : Extent} (h : extents.resolve block = .ok run) {k : Nat}
    (hk : k < run.count.toNat) (hblock : block.toNat + k < UInt32.size) :
    extents.resolve (.ofNat (block.toNat + k)) =
      if run.physicalStart.toNat + k < UInt32.size then
        .ok ⟨.ofNat (block.toNat + k), .ofNat (run.physicalStart.toNat + k),
          .ofNat (run.count.toNat - k)⟩
      else
        .error (.corrupted .extentOverrun) := by
  obtain ⟨before, d, after, huse, ⟨hfrom, hto⟩, -, hstart, hcount⟩ := exists_inside_of_resolve h
  have hnumber : (UInt32.ofNat (block.toNat + k)).toNat = block.toNat + k :=
    UInt32.toNat_ofNat_of_lt' hblock
  have hinside : Inside before d (UInt32.ofNat (block.toNat + k)).toNat :=
    ⟨by omega, by omega⟩
  have hplace : block.toNat + k - blockTotal before = block.toNat - blockTotal before + k := by
    omega
  rw [resolve_of_inside huse hinside, hnumber, hplace, foundIn, hstart, hcount, Nat.sub_sub,
    Nat.add_assoc]

/-- A run that is handed out can be used to its end if and only if its last physical
block has a number, or would have one only where the logical blocks have run out of
numbers themselves. From the first block without a number on, resolving the blocks
of the run is damage. -/
theorem usable_iff {run : Extent} (h : extents.resolve block = .ok run) :
    (extents.Usable run ↔ run.physicalStart.toNat + run.count.toNat ≤ UInt32.size ∨
      run.physicalStart ≤ block) ∧
    ∀ k < run.count.toNat, block.toNat + k < UInt32.size →
      UInt32.size ≤ run.physicalStart.toNat + k →
      extents.resolve (.ofNat (block.toNat + k)) = .error (.corrupted .extentOverrun) := by
  obtain ⟨-, -, -, -, -, hblock, -, -⟩ := exists_inside_of_resolve h
  have hbehind : ∀ k < run.count.toNat, block.toNat + k < UInt32.size →
      UInt32.size ≤ run.physicalStart.toNat + k →
      extents.resolve (.ofNat (block.toNat + k)) = .error (.corrupted .extentOverrun) := by
    intro k hk hnumber hover
    rw [resolve_ahead h hk hnumber, if_neg (Nat.not_lt.mpr hover)]
  rw [Usable, hblock, UInt32.le_iff_toNat_le]
  refine ⟨⟨fun husable => ?_, fun hlast k hk hnumber => ?_⟩, hbehind⟩
  · by_contra hlast
    have hstart := run.physicalStart.toNat_lt
    have hsize : UInt32.size = 4294967296 := rfl
    -- The first block of the run without a number.
    obtain ⟨rest, hrest, -⟩ := husable (UInt32.size - run.physicalStart.toNat)
      (by omega) (by omega)
    rw [hbehind _ (by omega) (by omega) (by omega)] at hrest
    cases hrest
  · have hfits : run.physicalStart.toNat + k < UInt32.size := by omega
    have hleft : run.count.toNat - k < UInt32.size := by
      have := run.count.toNat_lt
      have hsize : UInt32.size = 4294967296 := rfl
      omega
    exact ⟨_, (resolve_ahead h hk hnumber).trans (if_pos hfits),
      UInt32.toNat_ofNat_of_lt' hnumber, UInt32.toNat_ofNat_of_lt' hfits,
      UInt32.toNat_ofNat_of_lt' hleft⟩

/-! ### A sample

Two blocks from the last number on, and two blocks up to it. -/

def overlongExtents : ExtentRecord :=
  #v[⟨0xFFFFFFFF, 2⟩, ⟨0xFFFFFFFE, 2⟩, .unused, .unused, .unused, .unused, .unused, .unused]

theorem overlong_not_usable :
    overlongExtents.resolve 0 = .ok ⟨0, 0xFFFFFFFF, 2⟩ ∧
    overlongExtents.resolve 1 = .error (.corrupted .extentOverrun) ∧
    ¬ overlongExtents.Usable ⟨0, 0xFFFFFFFF, 2⟩ := by
  have hnext : overlongExtents.resolve 1 = .error (.corrupted .extentOverrun) := by decide
  refine ⟨by decide, hnext, fun husable => ?_⟩
  obtain ⟨rest, hrest, -⟩ := husable 1 (by decide) (by decide)
  cases hnext.symm.trans hrest

theorem overlong_usable_from_two :
    overlongExtents.resolve 2 = .ok ⟨2, 0xFFFFFFFE, 2⟩ ∧
    overlongExtents.Usable ⟨2, 0xFFFFFFFE, 2⟩ ∧
    ¬ overlongExtents.Usable ⟨0, 0xFFFFFFFF, 2⟩ := by
  have hfirst : overlongExtents.resolve 0 = .ok ⟨0, 0xFFFFFFFF, 2⟩ := by decide
  have hsecond : overlongExtents.resolve 2 = .ok ⟨2, 0xFFFFFFFE, 2⟩ := by decide
  refine ⟨hsecond, (usable_iff hsecond).1.mpr (by decide), fun husable => ?_⟩
  exact absurd ((usable_iff hfirst).1.mp husable) (by decide)

end ExtentRecord

end HfsPlus
