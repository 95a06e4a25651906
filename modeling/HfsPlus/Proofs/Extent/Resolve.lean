import HfsPlus.Extent.Resolve

/-!
# When a block is not found

The descriptors of a fork end at the first that is not in use. A block past
them is in none of them, and resolving it has two answers: if the record has a
descriptor that is not in use, the fork ends there and the block is not found;
if all eight are in use, it may go on in the extents overflow file, and that is
not read. Only the first answer says that something is absent.
-/

namespace HfsPlus

/-- The number of blocks in these descriptors. -/
def blockTotal : List ExtentDescriptor → Nat
  | [] => 0
  | d :: rest => d.blockCount.toNat + blockTotal rest

namespace ExtentRecord

/-- Not all eight descriptors are in use, and those that are do not come as far
as this block. -/
def EndsBefore (extents : ExtentRecord) (block : Nat) : Prop :=
  extents.inUse.length < extentDensity ∧ blockTotal extents.inUse ≤ block

instance (extents : ExtentRecord) (block : Nat) :
    Decidable (extents.EndsBefore block) :=
  inferInstanceAs (Decidable (_ ∧ _))

theorem resolveFrom_eq_notFound_iff {logicalBlock : UInt32}
    {descriptors : List ExtentDescriptor} : ∀ {ahead : UInt32},
    resolveFrom logicalBlock descriptors ahead = .error .notFound ↔
      (descriptors.takeWhile (·.blockCount ≠ 0)).length < descriptors.length ∧
        blockTotal (descriptors.takeWhile (·.blockCount ≠ 0)) ≤ ahead.toNat := by
  induction descriptors with
  | nil =>
    intro ahead
    simp [resolveFrom]
  | cons d rest ih =>
    intro ahead
    rw [resolveFrom]
    by_cases hzero : d.blockCount = 0
    · rw [if_pos hzero, List.takeWhile_cons_of_neg (by simpa using hzero)]
      simp [blockTotal]
    · rw [if_neg hzero, List.takeWhile_cons_of_pos (by simpa using hzero),
        blockTotal, List.length_cons, List.length_cons]
      by_cases hahead : ahead < d.blockCount
      · have hlt := UInt32.lt_iff_toNat_lt.mp hahead
        rw [if_pos hahead]
        constructor
        · intro h
          split at h <;> cases h
        · rintro ⟨-, hle⟩
          omega
      · have hle := UInt32.le_iff_toNat_le.mp (UInt32.not_lt.mp hahead)
        rw [if_neg hahead, ih, UInt32.toNat_sub_of_le _ _ (UInt32.not_lt.mp hahead)]
        omega

/-- A block is not found if and only if the extents end before it. -/
theorem resolve_eq_notFound_iff {extents : ExtentRecord} {logicalBlock : UInt32} :
    extents.resolve logicalBlock = .error .notFound ↔
      extents.EndsBefore logicalBlock.toNat := by
  rw [resolve, resolveFrom_eq_notFound_iff, EndsBefore, inUse, Vector.length_toList]

theorem length_le_of_resolveFrom {logicalBlock : UInt32} {reason : Unsupported}
    {descriptors : List ExtentDescriptor} : ∀ {ahead : UInt32},
    resolveFrom logicalBlock descriptors ahead = .error (.unsupported reason) →
      descriptors.length ≤ ahead.toNat := by
  induction descriptors with
  | nil => simp
  | cons d rest ih =>
    intro ahead h
    rw [resolveFrom] at h
    by_cases hzero : d.blockCount = 0
    · simp [hzero] at h
    · rw [if_neg hzero] at h
      by_cases hahead : ahead < d.blockCount
      · rw [if_pos hahead] at h
        split at h <;> cases h
      · rw [if_neg hahead] at h
        have hpos := UInt32.lt_iff_toNat_lt.mp (UInt32.pos_iff_ne_zero.mpr hzero)
        have hle := UInt32.le_iff_toNat_le.mp (UInt32.not_lt.mp hahead)
        have hrest := ih h
        rw [UInt32.toNat_sub_of_le _ _ (UInt32.not_lt.mp hahead)] at hrest
        rw [List.length_cons]
        have hone : 0 < d.blockCount.toNat := hpos
        omega

/-- The overflow file is not called for before the ninth block: eight descriptors
in use have eight blocks at least. -/
theorem density_le_of_resolve {extents : ExtentRecord} {logicalBlock : UInt32}
    {reason : Unsupported} (h : extents.resolve logicalBlock = .error (.unsupported reason)) :
    extentDensity ≤ logicalBlock.toNat := by
  have hlength := length_le_of_resolveFrom h
  rwa [Vector.length_toList] at hlength

end ExtentRecord

end HfsPlus
