import HfsPlus.Proofs.Catalog.Lexicographic
import HfsPlus.Proofs.Format.Exact

/-!
# Catalog keys as they lie in a record

Two lengths stand in front of a record's data: that of the key, and in the key
that of the name. Nothing makes them agree. A key may be longer than its name
needs, and what is behind the name is padding; a name may be longer than its
key, though bytes enough follow in the record, and then the key cannot be read.

Each of the two readers takes its own bytes and no others
(`KeyedRecord.parse_eq_ok_iff`, `CatalogKey.ofRecord_eq_ok_iff`), and so the
bytes of a record are told from the key, the padding and the data
(`CatalogKey.recordBytes_exact`).
-/

namespace HfsPlus

theorem BigEndian.flatMap_units : ∀ {bs : Bytes}, 2 ∣ bs.length →
    ((units bs).flatMap fun u => ofNat 2 u.toNat) = bs := by
  intro bs
  fun_induction units bs with
  | case1 hi lo rest ih =>
    intro heven
    have hunit : (UInt16.ofNat (toNat [hi, lo])).toNat = toNat [hi, lo] :=
      UInt16.toNat_ofNat_of_lt' (toNat_take_lt 2 (hi :: lo :: rest))
    have hpair : ofNat 2 (toNat [hi, lo]) = [hi, lo] := ofNat_toNat [hi, lo]
    rw [List.length_cons, List.length_cons] at heven
    rw [List.flatMap_cons, hunit, hpair, ih (by omega)]
    rfl
  | case2 bs hne =>
    intro heven
    rcases bs with _ | ⟨b, _ | ⟨lo, rest⟩⟩
    · rfl
    · simp at heven
    · exact absurd rfl (hne b lo rest)

open Format

/-! ## Records -/

namespace KeyedRecord

variable {record rest : Bytes} {r : KeyedRecord} {e : Error} {n : UInt16}

/-- The length that a record says its key has. -/
def storedLength (record : Bytes) : Nat := BigEndian.field record 0 2

/-- The bytes of a record. -/
def bytes (r : KeyedRecord) : Bytes := BigEndian.ofNat 2 r.key.length ++ r.key ++ r.data

theorem parse_of_decode (h : uint16.decode record = .ok (n, rest)) :
    parse record =
      if rest.length < n.toNat then .error (.corrupted .keyOverrun)
      else .ok ⟨rest.take n.toNat, rest.drop n.toNat⟩ := by
  rw [parse, h]
  simp only [List.length_take]
  by_cases hroom : rest.length < n.toNat
  · rw [if_pos hroom, if_pos (by omega)]
    rfl
  · rw [if_neg hroom, if_neg (by omega)]
    rfl

theorem parse_eq_ok_iff :
    parse record = .ok r ↔ r.key.length < UInt16.size ∧ record = r.bytes := by
  constructor
  · intro h
    cases hdecode : uint16.decode record with
    | error field =>
      rw [parse, hdecode] at h
      cases h
    | ok v =>
      obtain ⟨n, rest⟩ := v
      rw [parse_of_decode hdecode] at h
      split at h
      · cases h
      · next hroom =>
        cases h
        have hkey : (rest.take n.toNat).length = n.toNat := by
          rw [List.length_take]
          omega
        constructor
        · show (rest.take n.toNat).length < UInt16.size
          rw [hkey]
          exact n.toNat_lt
        · rw [bytes, hkey, List.append_assoc, List.take_append_drop]
          exact decode_uint16_eq_ok_iff.mp hdecode
  · rintro ⟨hlt, rfl⟩
    have hlength : (UInt16.ofNat r.key.length).toNat = r.key.length :=
      UInt16.toNat_ofNat_of_lt' hlt
    have hdecode : uint16.decode r.bytes = .ok (.ofNat r.key.length, r.key ++ r.data) := by
      rw [decode_uint16_eq_ok_iff, hlength, bytes, List.append_assoc]
    rw [parse_of_decode hdecode, hlength, List.take_left, List.drop_left, List.length_append,
      if_neg (by omega)]

theorem parse_eq_error_iff : parse record = .error e ↔
    (record.length < 2 ∧ e = .corrupted .missingKeyLength) ∨
      (2 ≤ record.length ∧ record.length < 2 + storedLength record ∧
        e = .corrupted .keyOverrun) := by
  rcases Nat.lt_or_ge record.length 2 with hshort | hlong
  · have hparse : parse record = .error (.corrupted .missingKeyLength) := by
      rw [parse, Word.decode_eq (f := uint16), if_neg (Nat.not_le.mpr hshort)]
      rfl
    rw [hparse]
    simp [hshort, Nat.not_le.mpr hshort, eq_comm]
  · obtain ⟨n, hdecode, hlength⟩ := exists_decode_uint16 hlong
    have hover : (record.drop 2).length < n.toNat ↔ record.length < 2 + storedLength record := by
      rw [hlength, List.length_drop, storedLength]
      omega
    rw [parse_of_decode hdecode]
    by_cases hroom : record.length < 2 + storedLength record
    · rw [if_pos (hover.mpr hroom)]
      simp [hlong, Nat.not_lt.mpr hlong, hroom, eq_comm]
    · rw [if_neg (fun h => hroom (hover.mp h))]
      simp [hlong, Nat.not_lt.mpr hlong, hroom]

end KeyedRecord

/-! ## Keys -/

namespace CatalogKey

variable {r : KeyedRecord} {key : CatalogKey} {e : Error}

theorem decode_fixedPart_eq_ok_iff {bs rest : Bytes} {parentId : CatalogId} {length : UInt16} :
    fixedPart.decode bs = .ok ((parentId, length), rest) ↔
      bs = BigEndian.ofNat 4 parentId.toNat ++ BigEndian.ofNat 2 length.toNat ++ rest := by
  rw [fixedPart, Exact.decode_eq_ok_iff]
  show bs = (BigEndian.ofNat 4 parentId.toNat ++ (BigEndian.ofNat 2 length.toNat ++ [])) ++ rest ↔ _
  rw [List.append_nil]

theorem ofRecord_eq_ok_iff : ofRecord r = .ok key ↔ Carries r key := by
  refine ⟨fun h => ?_, Carries.ofRecord_eq⟩
  cases hdecode : fixedPart.decode r.key with
  | error field =>
    rw [ofRecord, hdecode] at h
    cases h
  | ok v =>
    obtain ⟨⟨parentId, length⟩, rest⟩ := v
    rw [ofRecord, hdecode] at h
    simp only [] at h
    split at h
    · cases h
    · next hroom =>
      cases h
      have hname : (rest.take (2 * length.toNat)).length = 2 * length.toNat := by
        rw [List.length_take] at hroom ⊢
        omega
      -- The bytes of the name are even in number, so its units leave none of them out.
      have hunits : (BigEndian.units (rest.take (2 * length.toNat))).length = length.toNat := by
        rw [BigEndian.units_eq_map, List.length_map, List.length_range, hname]
        omega
      refine ⟨?_, rest.drop (2 * length.toNat), ?_⟩
      · show (BigEndian.units (rest.take (2 * length.toNat))).length < _
        rw [hunits]
        exact length.toNat_lt
      · simp only [encode, hunits, BigEndian.flatMap_units (hname ▸ Nat.dvd_mul_right 2 _)]
        rw [List.append_assoc _ (rest.take _), List.take_append_drop]
        exact decode_fixedPart_eq_ok_iff.mp hdecode

theorem ofRecord_eq_error_iff : ofRecord r = .error e ↔
    (r.key.length < 6 ∧ e = .corrupted .shortCatalogKey) ∨
      (6 ≤ r.key.length ∧ r.key.length < 6 + 2 * storedLength r.key ∧
        e = .corrupted .nameOverrun) := by
  rcases Nat.lt_or_ge r.key.length 6 with hshort | hfixed
  · rw [ofRecord_of_lt hshort]
    simp [hshort, Nat.not_le.mpr hshort, eq_comm]
  · rw [ofRecord_of_le hfixed]
    split
    · next hroom => simp [hfixed, Nat.not_lt.mpr hfixed, Nat.not_lt.mpr hroom]
    · next hroom =>
      simp [hfixed, Nat.not_lt.mpr hfixed, Nat.not_le.mp hroom, eq_comm]

/-! ## Both together -/

/-- The bytes of a record with this key. The length of the key counts the padding, the
length of the name does not. -/
def recordBytes (key : CatalogKey) (padding data : Bytes) : Bytes :=
  BigEndian.ofNat 2 (6 + 2 * key.name.length + padding.length) ++ key.encode ++ padding ++ data

theorem length_encode_append (key : CatalogKey) (padding : Bytes) :
    (key.encode ++ padding).length = 6 + 2 * key.name.length + padding.length := by
  rw [List.length_append, encode, List.length_append, List.length_append,
    BigEndian.length_ofNat, BigEndian.length_ofNat, length_nameBytes]

theorem recordBytes_eq (key : CatalogKey) (padding data : Bytes) :
    key.recordBytes padding data = KeyedRecord.bytes ⟨key.encode ++ padding, data⟩ := by
  rw [recordBytes, KeyedRecord.bytes, length_encode_append, List.append_assoc _ key.encode]

/-- From the bytes of a record come the key and the data that it was made of, and from
other bytes come none. A record cannot be taken apart if it ends before its key, and a
key cannot be read if it ends before its name. -/
theorem recordBytes_exact :
    (∀ (key : CatalogKey) (padding data : Bytes),
      6 + 2 * key.name.length + padding.length < UInt16.size →
      KeyedRecord.parse (key.recordBytes padding data) = .ok ⟨key.encode ++ padding, data⟩ ∧
      ofRecord ⟨key.encode ++ padding, data⟩ = .ok key) ∧
    (∀ (record : Bytes) (r : KeyedRecord) (key : CatalogKey),
      KeyedRecord.parse record = .ok r → ofRecord r = .ok key →
      ∃ padding, 6 + 2 * key.name.length + padding.length < UInt16.size ∧
        r.key = key.encode ++ padding ∧ record = key.recordBytes padding r.data) ∧
    (∀ (record : Bytes) (e : Error), KeyedRecord.parse record = .error e ↔
      (record.length < 2 ∧ e = .corrupted .missingKeyLength) ∨
        (2 ≤ record.length ∧ record.length < 2 + KeyedRecord.storedLength record ∧
          e = .corrupted .keyOverrun)) ∧
    ∀ (r : KeyedRecord) (e : Error), ofRecord r = .error e ↔
      (r.key.length < 6 ∧ e = .corrupted .shortCatalogKey) ∨
        (6 ≤ r.key.length ∧ r.key.length < 6 + 2 * storedLength r.key ∧
          e = .corrupted .nameOverrun) := by
  refine ⟨?_, ?_, fun record e => KeyedRecord.parse_eq_error_iff,
    fun r e => ofRecord_eq_error_iff⟩
  · intro key padding data hfits
    constructor
    · refine KeyedRecord.parse_eq_ok_iff.mpr ⟨?_, recordBytes_eq key padding data⟩
      show (key.encode ++ padding).length < UInt16.size
      rw [length_encode_append]
      exact hfits
    · exact ofRecord_eq_ok_iff.mpr ⟨by omega, padding, rfl⟩
  · intro record r key hparse hkey
    obtain ⟨hlt, hrecord⟩ := KeyedRecord.parse_eq_ok_iff.mp hparse
    obtain ⟨-, padding, hbytes⟩ := ofRecord_eq_ok_iff.mp hkey
    refine ⟨padding, ?_, hbytes, ?_⟩
    · rw [← length_encode_append, ← hbytes]
      exact hlt
    · rw [recordBytes_eq, ← hbytes]
      exact hrecord

/-- Three units under parent 2, a byte of padding, and a byte of data. -/
def paddedBytes : Bytes := [0, 13, 0, 0, 0, 2, 0, 3, 0, 0x41, 0, 0, 0xD8, 0, 0xAA, 7]

theorem recordBytes_padded :
    KeyedRecord.parse (zeroName.recordBytes [0xAA] [7]) = .ok ⟨zeroName.encode ++ [0xAA], [7]⟩ ∧
    ofRecord ⟨zeroName.encode ++ [0xAA], [7]⟩ = .ok zeroName ∧
    (∃ padding, paddedBytes = zeroName.recordBytes padding [7]) ∧
    KeyedRecord.parse (paddedBytes.take 14) = .error (.corrupted .keyOverrun) ∧
    ofRecord ⟨[0, 0, 0, 2, 0, 1, 0], [0x41]⟩ = .error (.corrupted .nameOverrun) := by
  obtain ⟨hread, honly, hshort, hcut⟩ := recordBytes_exact
  obtain ⟨hparse, hkey⟩ := hread zeroName [0xAA] [7] (by decide)
  have hbytes : KeyedRecord.parse paddedBytes = .ok ⟨zeroName.encode ++ [0xAA], [7]⟩ := by decide
  obtain ⟨padding, -, -, hrecord⟩ := honly _ _ _ hbytes hkey
  exact ⟨hparse, hkey, ⟨padding, hrecord⟩, (hshort _ _).mpr (.inr (by decide)),
    (hcut _ _).mpr (.inr (by decide))⟩

end CatalogKey

end HfsPlus
