/-!
# Times

The volume counts seconds from the start of 1904 in 32 bits. Programs count from the start of
1970, so a time on the volume is moved by the seconds between the two; what lies before 1970
becomes 0.
-/

namespace HfsPlus

/-- Seconds since the start of 1904, the way the volume records times. -/
abbrev Timestamp := UInt32

namespace Timestamp

/-- The seconds from the start of 1904 to the start of 1970. -/
def epochOffset : UInt32 := 2082844800

/-- Seconds since the start of 1970; 0 for every earlier time. -/
def posix (t : Timestamp) : UInt32 :=
  if epochOffset ≤ t then t - epochOffset else 0

theorem toNat_posix (t : Timestamp) : (posix t).toNat = t.toNat - epochOffset.toNat := by
  unfold posix
  split
  · rename_i h
    rw [UInt32.toNat_sub_of_le _ _ h]
  · rename_i h
    rw [UInt32.le_iff_toNat_le] at h
    simp
    omega

end Timestamp

end HfsPlus
