import HfsPlus.Bytes

/-!
# Formats of on-disk structures

A `Format` says how a value lies on the volume: what its bytes are, and how it is taken off the
front of a byte string. A structure's format is its fields' formats one after the other, and an
array's format repeats that of its element, so the layout of a structure is the list of its
fields and nothing else.

Decoding can fail in one way only: a field does not fit into the bytes that are left. The first
such field, in on-disk order, is named by its width.
-/

namespace HfsPlus

/-- The bytes ended before a field did. -/
structure MissingField where
  /-- The width in bytes of the first field that does not fit. -/
  width : Nat
deriving DecidableEq, Repr

/-- How values of a type are laid out in bytes. -/
structure Format (α : Type) where
  /-- Takes a value off the front of a byte string and returns it with the bytes behind it. -/
  decode : Bytes → Except MissingField (α × Bytes)
  /-- The bytes of a value. -/
  encode : α → Bytes

namespace Format

variable {α β : Type}

/-- A big-endian word of `width` bytes. -/
def word (width : Nat) : Format (BitVec (8 * width)) where
  decode bs :=
    let digits := bs.take width
    if digits.length = width then
      .ok (BitVec.ofNat _ (BigEndian.toNat digits), bs.drop width)
    else
      .error ⟨width⟩
  encode w := BigEndian.ofNat width w.toNat

/-- The same bytes, read as another type. -/
def iso (f : Format α) (make : α → β) (unmake : β → α) : Format β where
  decode bs := do
    let (a, rest) ← f.decode bs
    return (make a, rest)
  encode b := f.encode (unmake b)

/-- One value after another. -/
def seq (f : Format α) (g : Format β) : Format (α × β) where
  decode bs := do
    let (a, bs) ← f.decode bs
    let (b, bs) ← g.decode bs
    return ((a, b), bs)
  encode v := f.encode v.1 ++ g.encode v.2

/-- An unsigned byte. -/
def uint8 : Format UInt8 := (word 1).iso UInt8.ofBitVec UInt8.toBitVec

/-- An unsigned 16-bit number. -/
def uint16 : Format UInt16 := (word 2).iso UInt16.ofBitVec UInt16.toBitVec

/-- An unsigned 32-bit number. -/
def uint32 : Format UInt32 := (word 4).iso UInt32.ofBitVec UInt32.toBitVec

/-- An unsigned 64-bit number. -/
def uint64 : Format UInt64 := (word 8).iso UInt64.ofBitVec UInt64.toBitVec

/-- A signed byte, in two's complement. -/
def int8 : Format Int8 := (word 1).iso Int8.ofBitVec Int8.toBitVec

/-- A signed 16-bit number, in two's complement. -/
def int16 : Format Int16 := (word 2).iso Int16.ofBitVec Int16.toBitVec

/-- A signed 32-bit number, in two's complement. -/
def int32 : Format Int32 := (word 4).iso Int32.ofBitVec Int32.toBitVec

/-- Takes `n` values off the front, one after the other. -/
def decodeMany (f : Format α) : (n : Nat) → Bytes → Except MissingField (List α × Bytes)
  | 0, bs => .ok ([], bs)
  | n + 1, bs => do
    let (a, bs) ← f.decode bs
    let (l, bs) ← f.decodeMany n bs
    return (a :: l, bs)

theorem length_of_decodeMany {f : Format α} {n : Nat} {bs rest : Bytes} {l : List α}
    (h : f.decodeMany n bs = .ok (l, rest)) : l.length = n := by
  induction n generalizing bs l with
  | zero => cases h; rfl
  | succ n ih =>
    simp only [decodeMany, bind, Except.bind] at h
    split at h
    · cases h
    · split at h
      · cases h
      · rename_i v w hw
        cases h
        simp [ih hw]

/-- An array of `n` values, the first element in front. -/
def array (f : Format α) (n : Nat) : Format (Vector α n) where
  decode bs :=
    match h : f.decodeMany n bs with
    | .ok (l, rest) => .ok (⟨l.toArray, by simp [length_of_decodeMany h]⟩, rest)
    | .error e => .error e
  encode v := v.toList.flatMap f.encode

/-- A list of fewer than 65536 values behind its 16-bit length. -/
def counted (f : Format α) : Format { l : List α // l.length < 65536 } where
  decode bs := do
    let (n, bs) ← uint16.decode bs
    match h : f.decodeMany n.toNat bs with
    | .ok (l, rest) => .ok (⟨l, length_of_decodeMany h ▸ n.toNat_lt⟩, rest)
    | .error e => .error e
  encode l := uint16.encode (UInt16.ofNat l.val.length) ++ l.val.flatMap f.encode

end Format

end HfsPlus
