import HfsPlus.Proofs.Format.RoundTrip
import Mathlib.Data.List.Induction
import Mathlib.Tactic.Tauto

/-!
# Reading undoes writing, and nothing else

Everything in a structure is a number, so a value is a list of numbers with
their widths (`FieldValue`), and its bytes are the digits of these numbers in
order. A format is `Exact` if it reads a value from those bytes and from no
others, with whatever follows them left over, and if it fails on bytes that end
too early and on no others. When it fails it says which number is the first that
does not fit (`FirstMissing`), in the order in which they lie.

Words are exact because a number has one string of digits of each width. A
sequence is exact if its parts are: where the second part begins is told by the
widths of the first, whatever the value is. Only of the last part of a structure
may the widths depend on the bytes, as those of a list behind its length do.
-/

namespace HfsPlus

/-! ## Numbers in a string -/

namespace BigEndian

theorem toNat_lt (bs : Bytes) : toNat bs < Nat.pow 256 bs.length := by
  induction bs using List.reverseRecOn with
  | nil => exact Nat.one_pos
  | append_singleton bs b ih =>
    have hb := b.toNat_lt
    have hpow : Nat.pow 256 (bs.length + 1) = 256 * Nat.pow 256 bs.length := Nat.mul_comm _ _
    rw [toNat_append_singleton, List.length_append, List.length_singleton, hpow]
    omega

theorem toNat_take_lt (width : Nat) (bs : Bytes) : toNat (bs.take width) < Nat.pow 256 width := by
  refine Nat.lt_of_lt_of_le (toNat_lt _) (Nat.pow_le_pow_right (by decide) ?_)
  exact List.length_take_le width bs

theorem ofNat_toNat (bs : Bytes) : ofNat bs.length (toNat bs) = bs := by
  induction bs using List.reverseRecOn with
  | nil => rfl
  | append_singleton bs b ih =>
    have hb := b.toNat_lt
    have hfront : (256 * toNat bs + b.toNat) / 256 = toNat bs := by omega
    have hlast : UInt8.ofNat (256 * toNat bs + b.toNat) = b := by
      rw [← UInt8.toNat_inj, UInt8.toNat_ofNat']
      omega
    rw [List.length_append, List.length_singleton, ofNat, toNat_append_singleton, hfront, hlast, ih]

/-- The number that stands in `width` bytes from byte `offset` on. -/
def field (data : Bytes) (offset width : Nat) : Nat :=
  toNat ((data.drop offset).take width)

theorem field_drop (data : Bytes) (n offset width : Nat) :
    field (data.drop n) offset width = field data (n + offset) width := by
  rw [field, field, List.drop_drop]

theorem field_take (data : Bytes) {n offset width : Nat} (h : offset + width ≤ n) :
    field (data.take n) offset width = field data offset width := by
  rw [field, field, List.drop_take, List.take_take, Nat.min_eq_left (by omega)]

end BigEndian

/-! ## Values as numbers -/

/-- What one field of a structure holds: a number, and how many bytes it is written in. -/
structure FieldValue where
  width : Nat
  number : Nat
deriving DecidableEq

namespace FieldValue

/-- Two's complement: a number below zero is written as what it leaves modulo the first
number that is too large. -/
def signed (width : Nat) (n : Int) : FieldValue := ⟨width, (n % (Nat.pow 256 width : Nat)).toNat⟩

/-- A byte. -/
def uint8 (n : UInt8) : FieldValue := ⟨1, n.toNat⟩

/-- A number of two bytes. -/
def uint16 (n : UInt16) : FieldValue := ⟨2, n.toNat⟩

/-- A number of four bytes. -/
def uint32 (n : UInt32) : FieldValue := ⟨4, n.toNat⟩

/-- A number of eight bytes. -/
def uint64 (n : UInt64) : FieldValue := ⟨8, n.toNat⟩

/-- A signed byte. -/
def int8 (n : Int8) : FieldValue := signed 1 n.toInt

/-- A signed number of two bytes. -/
def int16 (n : Int16) : FieldValue := signed 2 n.toInt

/-- A signed number of four bytes. -/
def int32 (n : Int32) : FieldValue := signed 4 n.toInt

/-- The bytes of the fields, in order. -/
def bytes (fields : List FieldValue) : Bytes :=
  fields.flatMap fun field => BigEndian.ofNat field.width field.number

theorem bytes_append (front behind : List FieldValue) :
    bytes (front ++ behind) = bytes front ++ bytes behind :=
  List.flatMap_append

theorem signed_toInt (width : Nat) (w : BitVec (8 * width)) :
    signed width w.toInt = ⟨width, w.toNat⟩ := by
  have hpow : Nat.pow 256 width = 2 ^ (8 * width) := (Nat.pow_mul 2 8 width).symm
  have hnumber := BitVec.toNat_ofInt (n := 8 * width) w.toInt
  rw [BitVec.ofInt_toInt] at hnumber
  rw [signed, hpow, hnumber]

end FieldValue

/-! ## The field that does not fit -/

/-- The number of bytes that fields of these widths take up. -/
def totalWidth (widths : List Nat) : Nat := widths.foldr (· + ·) 0

/-- Of fields of these widths, the first that does not fit into so many bytes has this
width. -/
def FirstMissing (widths : List Nat) (available missing : Nat) : Prop :=
  ∃ before behind, widths = before ++ missing :: behind ∧
    totalWidth before ≤ available ∧ available < totalWidth before + missing

section Widths

variable {v w n : Nat} {ws vs : List Nat}

@[simp] theorem totalWidth_nil : totalWidth [] = 0 := rfl

@[simp] theorem totalWidth_cons : totalWidth (w :: ws) = w + totalWidth ws := rfl

@[simp] theorem totalWidth_append : totalWidth (ws ++ vs) = totalWidth ws + totalWidth vs := by
  induction ws with
  | nil => simp
  | cons w ws ih => simp [ih, Nat.add_assoc]

@[simp] theorem totalWidth_replicate : totalWidth (List.replicate n w) = n * w := by
  induction n with
  | zero => simp
  | succ n ih =>
    rw [List.replicate_succ, totalWidth_cons, ih, Nat.succ_mul, Nat.add_comm]

@[simp] theorem totalWidth_flatten_replicate :
    totalWidth (List.replicate n ws).flatten = n * totalWidth ws := by
  induction n with
  | zero => simp
  | succ n ih =>
    rw [List.replicate_succ, List.flatten_cons, totalWidth_append, ih, Nat.succ_mul, Nat.add_comm]

theorem length_bytes_fields (fields : List FieldValue) :
    (FieldValue.bytes fields).length = totalWidth (fields.map FieldValue.width) := by
  induction fields with
  | nil => rfl
  | cons field fields ih =>
    simp only [FieldValue.bytes] at ih
    simp [FieldValue.bytes, ih]

theorem not_firstMissing_nil : ¬ FirstMissing [] n w := by
  rintro ⟨before, behind, hsplit, -⟩
  simp at hsplit

theorem firstMissing_cons : FirstMissing (v :: ws) n w ↔
    (w = v ∧ n < v) ∨ (v ≤ n ∧ FirstMissing ws (n - v) w) := by
  constructor
  · rintro ⟨before, behind, hsplit, hfit, hmissing⟩
    cases before with
    | nil =>
      cases hsplit
      exact .inl ⟨rfl, by simpa using hmissing⟩
    | cons u before =>
      cases hsplit
      rw [totalWidth_cons] at hfit hmissing
      exact .inr ⟨by omega, before, behind, rfl, by omega, by omega⟩
  · rintro (⟨rfl, hmissing⟩ | ⟨hle, before, behind, rfl, hfit, hmissing⟩)
    · exact ⟨[], ws, rfl, Nat.zero_le _, by simpa using hmissing⟩
    · refine ⟨v :: before, behind, rfl, ?_, ?_⟩ <;> rw [totalWidth_cons] <;> omega

theorem firstMissing_append : ∀ {ws : List Nat} {n : Nat}, FirstMissing (ws ++ vs) n w ↔
    FirstMissing ws n w ∨ (totalWidth ws ≤ n ∧ FirstMissing vs (n - totalWidth ws) w) := by
  intro ws
  induction ws with
  | nil =>
    intro n
    simp [not_firstMissing_nil]
  | cons v ws ih =>
    intro n
    have hsub : n - (v + totalWidth ws) = n - v - totalWidth ws := by omega
    have hle : v + totalWidth ws ≤ n ↔ v ≤ n ∧ totalWidth ws ≤ n - v := by omega
    rw [List.cons_append, firstMissing_cons, firstMissing_cons, ih, totalWidth_cons, hsub, hle]
    tauto

theorem exists_firstMissing_iff : ∀ {ws : List Nat} {n : Nat},
    (∃ w, FirstMissing ws n w) ↔ n < totalWidth ws := by
  intro ws
  induction ws with
  | nil =>
    intro n
    simp [not_firstMissing_nil]
  | cons v ws ih =>
    intro n
    have hbehind := @ih (n - v)
    simp only [firstMissing_cons, totalWidth_cons]
    constructor
    · rintro ⟨w, ⟨-, hlt⟩ | ⟨hle, hw⟩⟩
      · omega
      · have := hbehind.mp ⟨w, hw⟩
        omega
    · intro hlt
      rcases Nat.lt_or_ge n v with hshort | hfit
      · exact ⟨v, .inl ⟨rfl, hshort⟩⟩
      · obtain ⟨w, hw⟩ := hbehind.mpr (by omega)
        exact ⟨w, .inr ⟨hfit, hw⟩⟩

end Widths

/-! ## Exact formats -/

namespace Format

variable {α β : Type} {f : Format α} {g : Format β} {F : α → List FieldValue}
  {G : β → List FieldValue} {ws : List Nat} {vs : Bytes → List Nat} {bs rest : Bytes}
  {missing : Nat}

/-- The format reads the numbers of a value off the front of a byte string. If it
cannot, then the bytes end in one of them. -/
class Exact (f : Format α) (fields : outParam (α → List FieldValue))
    (widths : outParam (Bytes → List Nat)) : Prop where
  decode_eq_ok_iff : ∀ {bs rest : Bytes} {a : α}, f.decode bs = .ok (a, rest) ↔
    bs = FieldValue.bytes (fields a) ++ rest
  decode_eq_error_iff : ∀ {bs : Bytes} {missing : Nat}, f.decode bs = .error ⟨missing⟩ ↔
    FirstMissing (widths bs) bs.length missing
  map_width : ∀ (a : α) (rest : Bytes), (fields a).map FieldValue.width =
    widths (FieldValue.bytes (fields a) ++ rest)

theorem exists_error_iff [Exact f F vs] :
    (∃ field, f.decode bs = .error field) ↔ bs.length < totalWidth (vs bs) := by
  rw [← exists_firstMissing_iff]
  constructor
  · rintro ⟨⟨missing⟩, h⟩
    exact ⟨missing, Exact.decode_eq_error_iff.mp h⟩
  · rintro ⟨missing, h⟩
    exact ⟨⟨missing⟩, Exact.decode_eq_error_iff.mpr h⟩

/-- A format whose widths do not depend on the bytes leaves what is behind so many. -/
theorem rest_of_decode [Exact f F fun _ => ws] {a : α} (h : f.decode bs = .ok (a, rest)) :
    totalWidth ws ≤ bs.length ∧ rest = bs.drop (totalWidth ws) := by
  rw [Exact.decode_eq_ok_iff (f := f)] at h
  have hlength : (FieldValue.bytes (F a)).length = totalWidth ws := by
    rw [length_bytes_fields, Exact.map_width (f := f) a rest]
  rw [h, List.drop_left' hlength, List.length_append, hlength]
  exact ⟨Nat.le_add_right _ _, rfl⟩

theorem exists_ok_of_le [Exact f F fun _ => ws] (h : totalWidth ws ≤ bs.length) :
    ∃ a, f.decode bs = .ok (a, bs.drop (totalWidth ws)) := by
  cases hdecode : f.decode bs with
  | error field =>
    have := (exists_error_iff (f := f)).mp ⟨field, hdecode⟩
    omega
  | ok v =>
    obtain ⟨a, rest⟩ := v
    obtain ⟨-, rfl⟩ := rest_of_decode hdecode
    exact ⟨a, rfl⟩

/-- One value is read and something else behind it. Since the width of the first is known,
that the second fails can be said without the first. -/
theorem bind_eq_error_iff [Exact f F fun _ => ws] {γ : Type} {combine : α → β → γ}
    {next : Bytes → Except MissingField (β × Bytes)} {field : MissingField} :
    (f.decode bs >>= fun a => next a.2 >>= fun b => pure (combine a.1 b.1, b.2)) = .error field ↔
      f.decode bs = .error field ∨
        (totalWidth ws ≤ bs.length ∧ next (bs.drop (totalWidth ws)) = .error field) := by
  constructor
  · intro h
    rcases error_or_exists_of_bind_eq_error h with h | ⟨⟨a, behind⟩, ha, h⟩
    · exact .inl h
    · obtain ⟨hle, rfl⟩ := rest_of_decode ha
      rcases error_or_exists_of_bind_eq_error h with h | ⟨b, -, h⟩
      · exact .inr ⟨hle, h⟩
      · cases h
  · rintro (h | ⟨hle, h⟩)
    · rw [h]
      rfl
    · obtain ⟨a, ha⟩ := exists_ok_of_le (f := f) hle
      rw [ha]
      show (next _ >>= _) = _
      rw [h]
      rfl

instance (width : Nat) : Exact (word width) (fun w => [⟨width, w.toNat⟩]) (fun _ => [width]) where
  decode_eq_ok_iff := by
    intro bs rest w
    have hbytes : FieldValue.bytes [⟨width, w.toNat⟩] = (word width).encode w :=
      List.append_nil _
    rw [hbytes]
    constructor
    · intro h
      simp only [word] at h
      split at h
      · next hlength =>
        cases h
        have hdigits := BigEndian.toNat_lt (bs.take width)
        have hpow : Nat.pow 256 width = 2 ^ (8 * width) := (Nat.pow_mul 2 8 width).symm
        rw [hlength, hpow] at hdigits
        have hback := BigEndian.ofNat_toNat (bs.take width)
        rw [hlength] at hback
        show bs = BigEndian.ofNat width (BitVec.ofNat _ _).toNat ++ bs.drop width
        rw [BitVec.toNat_ofNat, Nat.mod_eq_of_lt hdigits, hback, List.take_append_drop]
      · cases h
    · rintro rfl
      exact Faithful.decode_encode w rest
  decode_eq_error_iff := by
    intro bs missing
    rw [firstMissing_cons]
    simp only [word, List.length_take, not_firstMissing_nil, and_false, or_false]
    split
    · next hlength =>
      constructor
      · intro h
        cases h
      · rintro ⟨-, hshort⟩
        omega
    · next hlength =>
      constructor
      · intro h
        cases h
        exact ⟨rfl, by omega⟩
      · rintro ⟨rfl, -⟩
        rfl
  map_width := fun _ _ => rfl

theorem Exact.iso [Exact f F vs] {make : α → β} {unmake : β → α} {fields : β → List FieldValue}
    {widths : Bytes → List Nat} (hmake : ∀ b, make (unmake b) = b)
    (hunmake : ∀ a, unmake (make a) = a) (hfields : ∀ b, fields b = F (unmake b))
    (hwidths : ∀ bs, widths bs = vs bs) : Exact (f.iso make unmake) fields widths where
  decode_eq_ok_iff := by
    intro bs rest b
    rw [hfields, ← Exact.decode_eq_ok_iff (f := f)]
    constructor
    · intro h
      obtain ⟨⟨a, rest'⟩, ha, h⟩ := exists_of_bind_eq_ok h
      cases h
      rw [hunmake]
      exact ha
    · intro h
      simp only [Format.iso, h, bind, Except.bind, hmake]
      rfl
  decode_eq_error_iff := by
    intro bs missing
    rw [hwidths, ← Exact.decode_eq_error_iff (f := f)]
    -- `make` cannot fail, so every error is one of `f`.
    constructor
    · intro h
      rcases error_or_exists_of_bind_eq_error h with h | ⟨a, -, h⟩
      · exact h
      · cases h
    · intro h
      simp only [Format.iso, h]
      rfl
  map_width := by
    intro b rest
    rw [hfields, hwidths]
    exact Exact.map_width (f := f) _ _

instance [Exact f F fun _ => ws] [Exact g G vs] : Exact (f.seq g) (fun v => F v.1 ++ G v.2)
    (fun bs => ws ++ vs (bs.drop (totalWidth ws))) where
  decode_eq_ok_iff := by
    intro bs rest v
    rw [FieldValue.bytes_append, List.append_assoc]
    constructor
    · intro h
      obtain ⟨⟨a, behind⟩, ha, h⟩ := exists_of_bind_eq_ok h
      obtain ⟨⟨b, rest'⟩, hb, h⟩ := exists_of_bind_eq_ok h
      cases h
      rw [(Exact.decode_eq_ok_iff (f := f)).mp ha, (Exact.decode_eq_ok_iff (f := g)).mp hb]
    · intro h
      have ha : f.decode bs = .ok (v.1, FieldValue.bytes (G v.2) ++ rest) :=
        Exact.decode_eq_ok_iff.mpr h
      have hb : g.decode (FieldValue.bytes (G v.2) ++ rest) = .ok (v.2, rest) :=
        Exact.decode_eq_ok_iff.mpr rfl
      simp only [seq, ha, bind, Except.bind, hb]
      rfl
  decode_eq_error_iff := by
    intro bs missing
    rw [firstMissing_append, ← Exact.decode_eq_error_iff (f := f), ← List.length_drop,
      ← Exact.decode_eq_error_iff (f := g)]
    exact bind_eq_error_iff
  map_width := by
    intro v rest
    have hlength : (FieldValue.bytes (F v.1)).length = totalWidth ws := by
      rw [length_bytes_fields, Exact.map_width (f := f) v.1 []]
    rw [List.map_append, Exact.map_width (f := f) v.1 [], FieldValue.bytes_append,
      List.append_assoc, List.drop_left' hlength, Exact.map_width (f := g) v.2 rest]

/-! ## Numbers -/

instance : Exact uint8 (fun n => [.uint8 n]) (fun _ => [1]) :=
  .iso (fun _ => rfl) (fun _ => rfl) (fun _ => rfl) (fun _ => rfl)

instance : Exact uint16 (fun n => [.uint16 n]) (fun _ => [2]) :=
  .iso (fun _ => rfl) (fun _ => rfl) (fun _ => rfl) (fun _ => rfl)

instance : Exact uint32 (fun n => [.uint32 n]) (fun _ => [4]) :=
  .iso (fun _ => rfl) (fun _ => rfl) (fun _ => rfl) (fun _ => rfl)

instance : Exact uint64 (fun n => [.uint64 n]) (fun _ => [8]) :=
  .iso (fun _ => rfl) (fun _ => rfl) (fun _ => rfl) (fun _ => rfl)

instance : Exact int8 (fun n => [.int8 n]) (fun _ => [1]) :=
  .iso (f := word 1) (fun _ => rfl) (fun _ => rfl)
    (fun n => congrArg ([·]) (FieldValue.signed_toInt 1 n.toBitVec)) (fun _ => rfl)

instance : Exact int16 (fun n => [.int16 n]) (fun _ => [2]) :=
  .iso (f := word 2) (fun _ => rfl) (fun _ => rfl)
    (fun n => congrArg ([·]) (FieldValue.signed_toInt 2 n.toBitVec)) (fun _ => rfl)

instance : Exact int32 (fun n => [.int32 n]) (fun _ => [4]) :=
  .iso (f := word 4) (fun _ => rfl) (fun _ => rfl)
    (fun n => congrArg ([·]) (FieldValue.signed_toInt 4 n.toBitVec)) (fun _ => rfl)

/-- The format of a number of `width` bytes, which `make` turns into a value. -/
class Word (f : Format α) (width : outParam Nat) (make : outParam (Nat → α)) : Prop where
  decode_eq : ∀ bs, f.decode bs =
    if width ≤ bs.length then .ok (make (BigEndian.toNat (bs.take width)), bs.drop width)
    else .error ⟨width⟩

theorem Word.iso {width : Nat} (make : BitVec (8 * width) → α) (unmake : α → BitVec (8 * width)) :
    Word ((word width).iso make unmake) width fun n => make (.ofNat _ n) where
  decode_eq := by
    intro bs
    simp only [Format.iso, word, List.length_take]
    by_cases h : width ≤ bs.length
    · rw [if_pos h, if_pos (Nat.min_eq_left h)]
      rfl
    · rw [if_neg h, if_neg (by omega)]
      rfl

instance : Word uint16 2 UInt16.ofNat := .iso _ _

instance : Word uint32 4 UInt32.ofNat := .iso _ _

instance : Word uint64 8 UInt64.ofNat := .iso _ _

instance : Word int8 1 fun n => Int8.ofBitVec (.ofNat 8 n) := .iso _ _

theorem decode_uint16_eq_ok_iff {n : UInt16} :
    uint16.decode bs = .ok (n, rest) ↔ bs = BigEndian.ofNat 2 n.toNat ++ rest := by
  rw [Exact.decode_eq_ok_iff]
  show bs = (BigEndian.ofNat 2 n.toNat ++ []) ++ rest ↔ _
  rw [List.append_nil]

/-! ## Values in a row -/

theorem decodeMany_eq_ok_iff [Exact f F fun _ => ws] : ∀ {n : Nat} {bs rest : Bytes} {l : List α},
    f.decodeMany n bs = .ok (l, rest) ↔
      l.length = n ∧ bs = FieldValue.bytes (l.flatMap F) ++ rest := by
  intro n
  induction n with
  | zero =>
    intro bs rest l
    constructor
    · intro h
      cases h
      exact ⟨rfl, rfl⟩
    · rintro ⟨hlength, rfl⟩
      rw [List.eq_nil_of_length_eq_zero hlength]
      rfl
  | succ n ih =>
    intro bs rest l
    constructor
    · intro h
      obtain ⟨⟨a, behind⟩, ha, h⟩ := exists_of_bind_eq_ok h
      obtain ⟨⟨l', rest'⟩, hl, h⟩ := exists_of_bind_eq_ok h
      cases h
      obtain ⟨rfl, rfl⟩ := ih.mp hl
      refine ⟨rfl, ?_⟩
      rw [(Exact.decode_eq_ok_iff (f := f)).mp ha, List.flatMap_cons, FieldValue.bytes_append,
        List.append_assoc]
    · rintro ⟨hlength, rfl⟩
      cases l with
      | nil => cases hlength
      | cons a l =>
        rw [List.flatMap_cons, FieldValue.bytes_append, List.append_assoc]
        have ha : f.decode (FieldValue.bytes (F a) ++ (FieldValue.bytes (l.flatMap F) ++ rest)) =
            .ok (a, FieldValue.bytes (l.flatMap F) ++ rest) := Exact.decode_eq_ok_iff.mpr rfl
        have hl : f.decodeMany n (FieldValue.bytes (l.flatMap F) ++ rest) = .ok (l, rest) :=
          ih.mpr ⟨Nat.succ.inj hlength, rfl⟩
        simp only [decodeMany, ha, bind, Except.bind, hl]
        rfl

theorem decodeMany_eq_error_iff [Exact f F fun _ => ws] : ∀ {n : Nat} {bs : Bytes},
    f.decodeMany n bs = .error ⟨missing⟩ ↔
      FirstMissing (List.replicate n ws).flatten bs.length missing := by
  intro n
  induction n with
  | zero =>
    intro bs
    simp [decodeMany, not_firstMissing_nil]
  | succ n ih =>
    intro bs
    rw [List.replicate_succ, List.flatten_cons, firstMissing_append,
      ← Exact.decode_eq_error_iff (f := f), ← List.length_drop, ← ih]
    exact bind_eq_error_iff

theorem map_width_flatMap (f : Format α) [Exact f F fun _ => ws] (l : List α) :
    (l.flatMap F).map FieldValue.width = (List.replicate l.length ws).flatten := by
  induction l with
  | nil => rfl
  | cons a l ih =>
    rw [List.flatMap_cons, List.map_append, ih, Exact.map_width (f := f) a [], List.length_cons,
      List.replicate_succ, List.flatten_cons]

theorem array_eq_ok_iff {n : Nat} {v : Vector α n} :
    (f.array n).decode bs = .ok (v, rest) ↔ f.decodeMany n bs = .ok (v.toList, rest) := by
  simp only [array]
  constructor
  · intro h
    split at h
    · next l rest' hl =>
      cases h
      exact hl
    · cases h
  · intro h
    split
    · next l rest' hl =>
      rw [h] at hl
      cases hl
      rfl
    · next field hfield =>
      rw [h] at hfield
      cases hfield

theorem array_eq_error_iff {n : Nat} {field : MissingField} :
    (f.array n).decode bs = .error field ↔ f.decodeMany n bs = .error field := by
  simp only [array]
  constructor
  · intro h
    split at h
    · cases h
    · next field' hfield =>
      cases h
      exact hfield
  · intro h
    split
    · next l rest hl =>
      rw [h] at hl
      cases hl
    · next field' hfield =>
      rw [h] at hfield
      cases hfield
      rfl

instance [Exact f F fun _ => ws] (n : Nat) : Exact (f.array n) (fun v => v.toList.flatMap F)
    (fun _ => (List.replicate n ws).flatten) where
  decode_eq_ok_iff := by
    intro bs rest v
    rw [array_eq_ok_iff, decodeMany_eq_ok_iff]
    exact and_iff_right v.length_toList
  decode_eq_error_iff := by
    intro bs missing
    rw [array_eq_error_iff, decodeMany_eq_error_iff]
  map_width := by
    intro v rest
    rw [map_width_flatMap f, v.length_toList]

/-! ## A list behind its length -/

theorem counted_eq_ok_iff {l : { l : List α // l.length < 65536 }} :
    f.counted.decode bs = .ok (l, rest) ↔ ∃ n behind, uint16.decode bs = .ok (n, behind) ∧
      f.decodeMany n.toNat behind = .ok (l.val, rest) := by
  constructor
  · intro h
    obtain ⟨⟨n, behind⟩, hn, h⟩ := exists_of_bind_eq_ok h
    simp only [] at h
    split at h
    · next l' rest' hl =>
      cases h
      exact ⟨n, behind, hn, hl⟩
    · cases h
  · rintro ⟨n, behind, hn, h⟩
    simp only [counted, hn, bind, Except.bind]
    split
    · next l' rest' hl =>
      rw [h] at hl
      cases hl
      rfl
    · next field hfield =>
      rw [h] at hfield
      cases hfield

theorem counted_eq_error_iff {field : MissingField} :
    f.counted.decode bs = .error field ↔ uint16.decode bs = .error field ∨
      ∃ n behind, uint16.decode bs = .ok (n, behind) ∧
        f.decodeMany n.toNat behind = .error field := by
  constructor
  · intro h
    rcases error_or_exists_of_bind_eq_error h with h | ⟨⟨n, behind⟩, hn, h⟩
    · exact .inl h
    · simp only [] at h
      split at h
      · cases h
      · next field' hfield =>
        cases h
        exact .inr ⟨n, behind, hn, hfield⟩
  · rintro (h | ⟨n, behind, hn, h⟩)
    · simp only [counted, h]
      rfl
    · simp only [counted, hn, bind, Except.bind]
      split
      · next l rest hl =>
        rw [h] at hl
        cases hl
      · next field' hfield =>
        rw [h] at hfield
        cases hfield
        rfl

theorem toNat_of_decode_uint16 {n : UInt16} (h : uint16.decode bs = .ok (n, rest)) :
    n.toNat = BigEndian.field bs 0 2 := by
  rw [Word.decode_eq (f := uint16)] at h
  split at h
  · cases h
    exact UInt16.toNat_ofNat_of_lt' (BigEndian.toNat_take_lt 2 bs)
  · cases h

theorem exists_decode_uint16 (h : 2 ≤ bs.length) :
    ∃ n, uint16.decode bs = .ok (n, bs.drop 2) ∧ n.toNat = BigEndian.field bs 0 2 := by
  have hdecode : uint16.decode bs = .ok (.ofNat (BigEndian.toNat (bs.take 2)), bs.drop 2) := by
    rw [Word.decode_eq (f := uint16), if_pos h]
  exact ⟨_, hdecode, toNat_of_decode_uint16 hdecode⟩

instance [Exact f F fun _ => ws] : Exact f.counted
    (fun l => .uint16 (.ofNat l.val.length) :: l.val.flatMap F)
    (fun bs => 2 :: (List.replicate (BigEndian.field bs 0 2) ws).flatten) where
  decode_eq_ok_iff := by
    intro bs rest l
    simp only [counted_eq_ok_iff, decodeMany_eq_ok_iff]
    constructor
    · rintro ⟨n, behind, hn, hlength, rfl⟩
      rw [hlength, UInt16.ofNat_toNat]
      exact (Exact.decode_eq_ok_iff (f := uint16)).mp hn
    · intro h
      refine ⟨.ofNat l.val.length, _, Exact.decode_eq_ok_iff.mpr h, ?_, rfl⟩
      exact (UInt16.toNat_ofNat_of_lt' l.property).symm
  decode_eq_error_iff := by
    intro bs missing
    have hcount : uint16.decode bs = .error ⟨missing⟩ ↔ missing = 2 ∧ bs.length < 2 := by
      rw [Exact.decode_eq_error_iff, firstMissing_cons]
      simp [not_firstMissing_nil]
    rw [counted_eq_error_iff, firstMissing_cons, ← hcount, ← List.length_drop,
      ← decodeMany_eq_error_iff (f := f)]
    -- The length that was decoded is the number in the first two bytes.
    refine or_congr_right ⟨?_, ?_⟩
    · rintro ⟨n, behind, hn, h⟩
      obtain ⟨hle, rfl⟩ := rest_of_decode hn
      rw [toNat_of_decode_uint16 hn] at h
      exact ⟨hle, h⟩
    · rintro ⟨hle, h⟩
      obtain ⟨n, hn, hcount⟩ := exists_decode_uint16 hle
      rw [← hcount] at h
      exact ⟨n, _, hn, h⟩
  map_width := by
    intro l rest
    have hn : uint16.decode (FieldValue.bytes (.uint16 (.ofNat l.val.length) :: l.val.flatMap F)
        ++ rest) = .ok (.ofNat l.val.length, FieldValue.bytes (l.val.flatMap F) ++ rest) :=
      Exact.decode_eq_ok_iff.mpr rfl
    rw [List.map_cons, map_width_flatMap f, ← toNat_of_decode_uint16 hn,
      UInt16.toNat_ofNat_of_lt' l.property]
    rfl

/-! ## Reading -/

theorem read_eq_error_iff [Exact f F vs] {e : Error} : f.read bs = .error e ↔
    ∃ missing, FirstMissing (vs bs) bs.length missing ∧ e = .corrupted (.truncated ⟨missing⟩) := by
  simp only [← Exact.decode_eq_error_iff (f := f)]
  rw [read]
  cases f.decode bs with
  | ok v => simp
  | error field =>
    obtain ⟨missing⟩ := field
    simp [eq_comm]

end Format

end HfsPlus
