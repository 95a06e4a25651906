import HfsPlus.Bytes
import HfsPlus.Text.Utf16

/-!
# Line feeds in what is written

A text is written as UTF-8, and whoever reads it back takes it apart at the byte
that ends a line. In UTF-8 this byte is a line feed and never a part of another
character (`count_utf8EncodeChar`), so what is written has as many of them as
the text has, and a name that is shown has as many as there are among its units
(`Utf16.count_decodeChars`): a surrogate is none, with or without its partner.

Lines that are written one after another, each with its end, are therefore what
comes back if and only if none of them holds a line feed (`splitOn_lines_iff`).
-/

namespace HfsPlus

/-- The byte that ends a line. -/
def lineFeed : UInt8 := 0x0A

namespace Text

/-- What is written of a text. -/
def utf8 (s : String) : Bytes := s.toUTF8.data.toList

/-! ## Texts as bytes -/

theorem utf8_eq_flatMap (s : String) : utf8 s = s.toList.flatMap String.utf8EncodeChar := by
  have h : (String.ofList s.toList).toByteArray = s.toList.utf8Encode := String.toByteArray_ofList
  rw [String.ofList_toList] at h
  rw [utf8, String.toUTF8, h, List.utf8Encode, List.toList_data_toByteArray]

theorem utf8_append (s t : String) : utf8 (s ++ t) = utf8 s ++ utf8 t := by
  rw [utf8_eq_flatMap, utf8_eq_flatMap, utf8_eq_flatMap, String.toList_append, List.flatMap_append]

theorem utf8_join (texts : List String) : utf8 (String.join texts) = texts.flatMap utf8 := by
  rw [utf8_eq_flatMap, String.toList_join, List.flatMap_assoc]
  exact congrArg (texts.flatMap ·) (funext fun s => (utf8_eq_flatMap s).symm)

theorem ofNat_ne_lineFeed {n : Nat} (h : n ≠ 10) (hlt : n < 256) : UInt8.ofNat n ≠ lineFeed := by
  intro heq
  have hnat := congrArg UInt8.toNat heq
  rw [UInt8.toNat_ofNat_of_lt' hlt] at hnat
  exact h hnat

/-- The bytes of a character are a line feed, or have none among them. -/
theorem count_utf8EncodeChar (c : Char) :
    (String.utf8EncodeChar c).count lineFeed = if c = '\n' then 1 else 0 := by
  by_cases hc : c = '\n'
  · subst hc
    rfl
  · have hne : c.val.toNat ≠ 10 := by
      intro h
      exact hc (Char.ext (UInt32.toNat_inj.mp h))
    -- A byte of a longer sequence is at least 128.
    have hlate : ∀ n, 128 ≤ n → n < 256 → lineFeed ≠ UInt8.ofNat n :=
      fun n hfrom hto => (ofNat_ne_lineFeed (by omega) hto).symm
    rw [if_neg hc, List.count_eq_zero]
    intro hmem
    simp only [String.utf8EncodeChar] at hmem
    split at hmem
    · exact ofNat_ne_lineFeed hne (by omega) (List.mem_singleton.mp hmem).symm
    · split at hmem
      · simp only [List.mem_cons, List.not_mem_nil, or_false] at hmem
        rcases hmem with h | h <;> exact hlate _ (by omega) (by omega) h
      · split at hmem
        · simp only [List.mem_cons, List.not_mem_nil, or_false] at hmem
          rcases hmem with h | h | h <;> exact hlate _ (by omega) (by omega) h
        · simp only [List.mem_cons, List.not_mem_nil, or_false] at hmem
          rcases hmem with h | h | h | h <;> exact hlate _ (by omega) (by omega) h

theorem count_utf8 (s : String) : (utf8 s).count lineFeed = s.toList.count '\n' := by
  rw [utf8_eq_flatMap]
  induction s.toList with
  | nil => rfl
  | cons c rest ih =>
    rw [List.flatMap_cons, List.count_append, count_utf8EncodeChar, ih, List.count_cons]
    simp only [beq_iff_eq]
    omega

/-! ## Names as texts -/

namespace Utf16

theorem ofNat_eq_lineFeed {n : Nat} (h : Char.ofNat n = '\n') : n = 10 := by
  by_cases hvalid : n.isValidChar
  · rw [Char.ofNat, dif_pos hvalid] at h
    exact congrArg Char.toNat h
  · rw [Char.ofNat, dif_neg hvalid] at h
    exact absurd h (by decide)

theorem single_eq_lineFeed_iff (u : UInt16) : single u = '\n' ↔ u = 0x000A := by
  constructor
  · intro h
    rw [single] at h
    split at h
    · exact absurd h (by decide)
    · exact UInt16.toNat_inj.mp (ofNat_eq_lineFeed h)
  · rintro rfl
    rfl

theorem paired_ne_lineFeed (hi lo : UInt16) : paired hi lo ≠ '\n' := by
  intro h
  have hnat := ofNat_eq_lineFeed h
  omega

/-- As many line feeds are shown as there are among the units. -/
theorem count_decodeChars (units : List UInt16) :
    (decodeChars units).count '\n' = units.count 0x000A := by
  fun_induction decodeChars units with
  | case1 => rfl
  | case2 u => simp [List.count_cons, single_eq_lineFeed_iff]
  | case3 hi lo rest h ih =>
    have hhi : hi ≠ 0x000A := by
      rintro rfl
      cases h
    have hlo : lo ≠ 0x000A := by
      rintro rfl
      rw [Bool.and_eq_true] at h
      cases h.2
    rw [List.count_cons_of_ne (paired_ne_lineFeed hi lo), ih, List.count_cons_of_ne hhi,
      List.count_cons_of_ne hlo]
  | case4 u v rest _ ih =>
    rw [List.count_cons, ih, List.count_cons (a := 0x000A) (b := u)]
    simp only [beq_iff_eq, single_eq_lineFeed_iff]

end Utf16

/-! ## Lines, taken apart again -/

theorem length_splitOn (bytes : Bytes) :
    (bytes.splitOn lineFeed).length = bytes.count lineFeed + 1 := by
  induction bytes with
  | nil => rfl
  | cons b rest ih =>
    rw [List.splitOn_cons_eq_if_modifyHead, List.count_cons]
    split
    · rw [List.length_cons, ih]
    · rw [List.length_modifyHead, ih]

theorem splitOn_lines (lines : List Bytes) :
    (lines.flatMap (· ++ [lineFeed])).splitOn lineFeed =
      lines.flatMap (List.splitOn lineFeed) ++ [[]] := by
  induction lines with
  | nil => rfl
  | cons line rest ih =>
    rw [List.flatMap_cons, List.append_assoc, List.singleton_append,
      List.splitOn_append_cons_self, ih, List.flatMap_cons, List.append_assoc]

theorem length_splitOn_lines (lines : List Bytes) :
    (lines.flatMap (List.splitOn lineFeed)).length =
      lines.length + lines.flatten.count lineFeed := by
  induction lines with
  | nil => rfl
  | cons line rest ih =>
    rw [List.flatMap_cons, List.length_append, length_splitOn, ih, List.flatten_cons,
      List.count_append, List.length_cons]
    omega

/-- Lines that are written one after another come back if and only if none of them
holds a line feed. -/
theorem splitOn_lines_iff (lines : List Bytes) :
    (lines.flatMap (· ++ [lineFeed])).splitOn lineFeed = lines ++ [[]] ↔
      ∀ line ∈ lines, line.count lineFeed = 0 := by
  rw [splitOn_lines, List.append_cancel_right_eq]
  constructor
  · intro h line hline
    have hlength := length_splitOn_lines lines
    rw [h] at hlength
    have hnone : lines.flatten.count lineFeed = 0 := by omega
    rw [List.count_eq_zero] at hnone ⊢
    exact fun hmem => hnone (List.mem_flatten_of_mem hline hmem)
  · intro h
    induction lines with
    | nil => rfl
    | cons line rest ih =>
      obtain ⟨hline, hrest⟩ := List.forall_mem_cons.mp h
      rw [List.flatMap_cons, List.splitOn_eq_singleton (List.count_eq_zero.mp hline), ih hrest,
        List.singleton_append]

end Text

end HfsPlus
