/-!
# Byte strings and big-endian numbers

Everything on an HFS Plus volume is stored most significant byte first, so one reading of digits to
base 256 serves every field of every structure. `BigEndian.toNat` reads a string of bytes,
`BigEndian.ofNat` writes one of a given width, and each undoes the other; the formats of
`HfsPlus.Format` are built from nothing else.
-/

namespace HfsPlus

/-- A byte string, in the order in which the bytes stand on the volume. -/
abbrev Bytes := List UInt8

namespace BigEndian

/-- The number whose digits to base 256 are `bs`, the most significant first. -/
def toNat (bs : Bytes) : Nat :=
  bs.foldl (fun n b => 256 * n + b.toNat) 0

/-- The last `width` digits of `n` to base 256, the most significant first. -/
def ofNat : (width : Nat) → (n : Nat) → Bytes
  | 0, _ => []
  | width + 1, n => ofNat width (n / 256) ++ [UInt8.ofNat n]

/-- The 16-bit units that a byte string holds, two bytes each. An odd byte at the end is dropped. -/
def units : Bytes → List UInt16
  | hi :: lo :: rest => UInt16.ofNat (toNat [hi, lo]) :: units rest
  | _ => []

@[simp] theorem toNat_nil : toNat [] = 0 := rfl

@[simp] theorem toNat_append_singleton (bs : Bytes) (b : UInt8) :
    toNat (bs ++ [b]) = 256 * toNat bs + b.toNat := by
  simp [toNat]

@[simp] theorem length_ofNat (width n : Nat) : (ofNat width n).length = width := by
  induction width generalizing n with
  | zero => rfl
  | succ width ih => simp [ofNat, ih]

theorem toNat_ofNat (width n : Nat) : toNat (ofNat width n) = n % Nat.pow 256 width := by
  induction width generalizing n with
  | zero => simp [ofNat, Nat.mod_one]
  | succ width ih =>
    have hb : (UInt8.ofNat n).toNat = n % 256 := by simp
    have hpow : Nat.pow 256 (width + 1) = 256 * Nat.pow 256 width := Nat.mul_comm _ _
    rw [ofNat, toNat_append_singleton, ih, hb, hpow, Nat.mod_mul]
    omega

end BigEndian

end HfsPlus
