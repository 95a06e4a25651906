import HfsPlus.Proofs.Run
import HfsPlus.Tree.Header

/-!
# What is written is read again

A format both writes and reads, and nothing in its definition ties the two
together. That they belong together is `Format.Faithful`: the bytes of a value,
with anything behind them, are read as the value, and what is behind them is
left. Words have it because their digits are a number's, and a structure has it
because its fields do.
-/

namespace HfsPlus

namespace Format

variable {α β : Type} {f : Format α} {g : Format β}

/-- The bytes of a value are read as that value, whatever is behind them. -/
class Faithful (f : Format α) : Prop where
  decode_encode : ∀ (a : α) (rest : Bytes), f.decode (f.encode a ++ rest) = .ok (a, rest)

instance (width : Nat) : Faithful (word width) where
  decode_encode := by
    intro w rest
    have hlength := BigEndian.length_ofNat width w.toNat
    have hlt : w.toNat < Nat.pow 256 width := by
      have hpow : Nat.pow 256 width = 2 ^ (8 * width) := (Nat.pow_mul 2 8 width).symm
      exact hpow ▸ w.isLt
    simp only [word]
    rw [List.take_left' hlength, if_pos hlength, List.drop_left' hlength, BigEndian.toNat_ofNat,
      Nat.mod_eq_of_lt hlt, BitVec.ofNat_toNat, BitVec.setWidth_eq]

theorem Faithful.iso [Faithful f] {make : α → β} {unmake : β → α}
    (h : ∀ b, make (unmake b) = b) : Faithful (f.iso make unmake) where
  decode_encode := by
    intro b rest
    simp only [Format.iso, decode_encode, bind, Except.bind, h]
    rfl

instance [Faithful f] [Faithful g] : Faithful (f.seq g) where
  decode_encode := by
    intro v rest
    simp only [seq, List.append_assoc, Faithful.decode_encode, bind, Except.bind]
    rfl

instance : Faithful uint8 := .iso fun _ => rfl

instance : Faithful uint16 := .iso fun _ => rfl

instance : Faithful uint32 := .iso fun _ => rfl

instance : Faithful int8 := .iso fun _ => rfl

theorem read_encode [Faithful f] (a : α) (rest : Bytes) :
    f.read (f.encode a ++ rest) = .ok a := by
  rw [read, Faithful.decode_encode]

end Format

instance : Format.Faithful NodeDescriptor.format := .iso fun _ => rfl

end HfsPlus
