import HfsPlus.Proofs.Checked.Catalog

/-!
# The comparison of the catalog is lexicographic

What the catalog is searched by compares a record, as it lies on the volume, with
a key. Here both sides are spelled out: the numbers that stand in the bytes of
the record's key (`storedParent`, `storedName`), and the order of two lists that
calls a list less than its extensions and else goes by the first place where
they differ.

The comparison itself is a loop over both names at once, with zero for the end
of a name, and passes over units that fold to zero. There are no such units, and
that is why the loop sees each name to its end, zeros and all
(`Checked.compareNames_eq_ok`). So a search key is compared with a record as with
any other key, and the comparison has the laws of an order
(`orderRecord_lexicographic`).
-/

namespace HfsPlus

theorem BigEndian.units_eq_map (bs : Bytes) :
    units bs = (List.range (bs.length / 2)).map fun i => .ofNat (field bs (2 * i) 2) := by
  fun_induction units bs with
  | case1 hi lo rest ih =>
    have hhalf : (rest.length + 1 + 1) / 2 = rest.length / 2 + 1 := by omega
    rw [List.length_cons, List.length_cons, hhalf, List.range_succ_eq_map, List.map_cons,
      List.map_map, ih]
    rfl
  | case2 bs hne =>
    rcases bs with _ | ⟨b, _ | ⟨lo, rest⟩⟩
    · rfl
    · simp
    · exact absurd rfl (hne b lo rest)

theorem BigEndian.units_flatMap (name : Name) :
    units (name.flatMap fun u => ofNat 2 u.toNat) = name := by
  induction name with
  | nil => rfl
  | cons u rest ih =>
    have hunit : UInt16.ofNat (toNat (ofNat 2 u.toNat)) = u := by
      rw [toNat_ofNat, Nat.mod_eq_of_lt u.toNat_lt, UInt16.ofNat_toNat]
    show UInt16.ofNat (toNat (ofNat 2 u.toNat)) ::
      units (rest.flatMap fun u => ofNat 2 u.toNat) = u :: rest
    rw [hunit, ih]

namespace CatalogKey

variable {r : KeyedRecord} {key : CatalogKey}

/-! ## Keys on the volume -/

/-- The parent's number in the bytes of a key. -/
def storedParent (bytes : Bytes) : Nat := BigEndian.field bytes 0 4

/-- The number of units that a key's name is said to have. -/
def storedLength (bytes : Bytes) : Nat := BigEndian.field bytes 4 2

/-- The units of the name in the bytes of a key. -/
def storedName (bytes : Bytes) : Name :=
  (List.range (storedLength bytes)).map fun i => .ofNat (BigEndian.field bytes (6 + 2 * i) 2)

/-- The key in these bytes. -/
def stored (bytes : Bytes) : CatalogKey := ⟨.ofNat (storedParent bytes), storedName bytes⟩

/-- The bytes have room for a parent, a length, and as many units as it says. -/
def Legible (bytes : Bytes) : Prop :=
  6 ≤ bytes.length ∧ 6 + 2 * storedLength bytes ≤ bytes.length

instance (bytes : Bytes) : Decidable (Legible bytes) := inferInstanceAs (Decidable (_ ∧ _))

/-- The bytes of a key. -/
def encode (key : CatalogKey) : Bytes :=
  BigEndian.ofNat 4 key.parentId.toNat ++ BigEndian.ofNat 2 key.name.length ++
    key.name.flatMap fun u => BigEndian.ofNat 2 u.toNat

theorem ofRecord_of_lt (h : r.key.length < 6) :
    ofRecord r = .error (.corrupted .shortCatalogKey) := by
  obtain ⟨field, hfield⟩ := Checked.exists_error_of_short h
  rw [ofRecord, hfield]
  rfl

theorem ofRecord_of_le (h : 6 ≤ r.key.length) :
    ofRecord r =
      if 6 + 2 * storedLength r.key ≤ r.key.length then
        .ok ⟨.ofNat (storedParent r.key),
          BigEndian.units ((r.key.drop 6).take (2 * storedLength r.key))⟩
      else
        .error (.corrupted .nameOverrun) := by
  have hlength : (UInt16.ofNat (BigEndian.toNat ((r.key.drop 4).take 2))).toNat =
      storedLength r.key :=
    UInt16.toNat_ofNat_of_lt' (BigEndian.toNat_take_lt 2 _)
  rw [ofRecord, Checked.decode_fixedPart h]
  simp only [hlength, List.length_take, List.length_drop]
  by_cases hroom : 6 + 2 * storedLength r.key ≤ r.key.length
  · rw [if_pos hroom, if_neg (by omega)]
    rfl
  · rw [if_neg hroom, if_pos (by omega)]
    rfl

theorem ofRecord_of_legible (h : Legible r.key) :
    ofRecord r = .ok (stored r.key) := by
  obtain ⟨hfixed, hroom⟩ := h
  have hname : ((r.key.drop 6).take (2 * storedLength r.key)).length =
      2 * storedLength r.key := by
    rw [List.length_take, List.length_drop]
    omega
  have hhalf : 2 * storedLength r.key / 2 = storedLength r.key := by omega
  rw [ofRecord_of_le hfixed, if_pos hroom, BigEndian.units_eq_map, hname, hhalf, stored,
    storedName]
  congr 2
  refine List.map_congr_left fun i hi => ?_
  have hin := List.mem_range.mp hi
  rw [BigEndian.field_take _ (by omega), BigEndian.field_drop]

theorem exists_of_not_legible (h : ¬ Legible r.key) :
    ∃ damage, ofRecord r = .error (.corrupted damage) := by
  rcases Nat.lt_or_ge r.key.length 6 with hshort | hfixed
  · exact ⟨_, ofRecord_of_lt hshort⟩
  · exact ⟨_, (ofRecord_of_le hfixed).trans (if_neg fun hroom => h ⟨hfixed, hroom⟩)⟩

theorem length_nameBytes (name : Name) :
    (name.flatMap fun u => BigEndian.ofNat 2 u.toNat).length = 2 * name.length := by
  induction name with
  | nil => rfl
  | cons u rest ih =>
    rw [List.flatMap_cons, List.length_append, BigEndian.length_ofNat, ih, List.length_cons]
    omega

/-- The record has this key, perhaps with padding behind it. -/
def Carries (r : KeyedRecord) (key : CatalogKey) : Prop :=
  key.name.length < UInt16.size ∧ ∃ padding, r.key = key.encode ++ padding

theorem Carries.ofRecord_eq (h : Carries r key) : ofRecord r = .ok key := by
  obtain ⟨hlt, padding, hbytes⟩ := h
  have hparent : storedParent r.key = key.parentId.toNat := by
    have hfront : (r.key.drop 0).take 4 = BigEndian.ofNat 4 key.parentId.toNat := by
      simp [hbytes, encode, List.append_assoc]
    rw [storedParent, BigEndian.field, hfront, BigEndian.toNat_ofNat]
    exact Nat.mod_eq_of_lt key.parentId.toNat_lt
  have hlength : storedLength r.key = key.name.length := by
    have hfront : (r.key.drop 4).take 2 = BigEndian.ofNat 2 key.name.length := by
      simp [hbytes, encode, List.append_assoc]
    rw [storedLength, BigEndian.field, hfront, BigEndian.toNat_ofNat]
    exact Nat.mod_eq_of_lt hlt
  have hname : (r.key.drop 6).take (2 * key.name.length) =
      key.name.flatMap fun u => BigEndian.ofNat 2 u.toNat := by
    rw [hbytes, encode, List.append_assoc,
      List.drop_append_of_le_length (by simp), List.drop_eq_nil_of_le (by simp), List.nil_append]
    exact List.take_left' (length_nameBytes key.name)
  have hroom : 6 + 2 * key.name.length ≤ r.key.length := by
    rw [hbytes, encode]
    simp only [List.length_append, BigEndian.length_ofNat, length_nameBytes]
    omega
  rw [ofRecord_of_le (by omega), hlength, if_pos hroom, hname, BigEndian.units_flatMap, hparent,
    UInt32.ofNat_toNat]

/-! ## The order of keys -/

/-- Lists compare by the first place where they differ, and a list is less than its
extensions. -/
theorem compare_eq_lt_iff_lex : ∀ {a b : List UInt16},
    compare a b = .lt ↔ List.Lex (· < ·) a b := by
  intro a
  induction a with
  | nil =>
    intro b
    cases b with
    | nil => simp [List.not_lex_nil]
    | cons u b => simp [List.compare_nil_cons]
  | cons t a ih =>
    intro b
    cases b with
    | nil => simp [List.compare_cons_nil, List.not_lex_nil]
    | cons u b =>
      rw [List.compare_cons_cons, Ordering.then_eq_lt, Std.compare_eq_lt, Std.compare_eq_iff_eq,
        ih, List.cons_lex_cons_iff]

/-- The parent comes first, the folded name after it. -/
def Precedes (a b : CatalogKey) : Prop :=
  a.parentId < b.parentId ∨
    a.parentId = b.parentId ∧ List.Lex (· < ·) a.name.fold b.name.fold

theorem order_eq_lt {a b : CatalogKey} : a.order b = .lt ↔ a.Precedes b := by
  rw [order, Ordering.then_eq_lt, Std.compare_eq_lt, Std.compare_eq_iff_eq,
    compare_eq_lt_iff_lex, Precedes]

theorem order_eq_gt {a b : CatalogKey} : a.order b = .gt ↔ b.Precedes a := by
  rw [← order_eq_lt]
  exact Std.OrientedCmp.gt_iff_lt

theorem orderRecord_of_ofRecord {found : CatalogKey} (h : ofRecord r = .ok found) :
    key.orderRecord r = .ok (found.order key) := by
  rw [orderRecord, h]
  rfl

/-- A record is placed against a key if its own key can be read, and where it stands
is then told by the two parents, and by the two folded names if the parents are the
same. The same comes of going through both names at once, to the first zero. Among
keys that are laid out on the volume it is an order. -/
theorem orderRecord_lexicographic (r : KeyedRecord) (key : CatalogKey) :
    (¬ Legible r.key → ∃ damage, key.orderRecord r = .error (.corrupted damage)) ∧
    (Legible r.key →
      (∃ o, key.orderRecord r = .ok o) ∧
      (key.orderRecord r = .ok .lt ↔ (stored r.key).Precedes key) ∧
      (key.orderRecord r = .ok .eq ↔
        (stored r.key).parentId = key.parentId ∧ (stored r.key).name.fold = key.name.fold) ∧
      (key.orderRecord r = .ok .gt ↔ key.Precedes (stored r.key))) ∧
    Checked.orderRecord key r = liftM (key.orderRecord r) ∧
    ∀ (a b c : CatalogKey) (ra rb : KeyedRecord), Carries ra a → Carries rb b →
      (∃ o, b.orderRecord ra = .ok o ∧ a.orderRecord rb = .ok o.swap) ∧
      (b.orderRecord ra = .ok .eq ↔ a.parentId = b.parentId ∧ a.name.fold = b.name.fold) ∧
      (b.orderRecord ra = .ok .lt → c.orderRecord rb = .ok .lt →
        c.orderRecord ra = .ok .lt) := by
  refine ⟨fun h => ?_, fun h => ?_, Checked.orderRecord_eq key r, fun a b c ra rb ha hb => ?_⟩
  · obtain ⟨damage, hdamage⟩ := exists_of_not_legible h
    exact ⟨damage, by rw [orderRecord, hdamage]; rfl⟩
  · rw [orderRecord_of_ofRecord (ofRecord_of_legible h)]
    simp only [Except.ok.injEq, order_eq_lt, order_eq_eq, order_eq_gt, exists_eq',
      and_self]
  · simp only [orderRecord_of_ofRecord ha.ofRecord_eq, orderRecord_of_ofRecord hb.ofRecord_eq,
      Except.ok.injEq]
    exact ⟨⟨_, rfl, Std.OrientedCmp.eq_swap⟩, order_eq_eq, Std.TransCmp.lt_trans⟩

/-! ### A sample

Names with zero units, largest units and lone surrogates. Folded, the first is the
front of the second. -/

def zeroName : CatalogKey := ⟨2, [0x41, 0, 0xD800]⟩

def largestName : CatalogKey := ⟨2, [0x61, 0xFFFF, 0xD800, 0xDFFF]⟩

def paddedRecord (key : CatalogKey) : KeyedRecord := ⟨key.encode ++ [0xAA], []⟩

theorem zeroName_lexicographic :
    largestName.orderRecord (paddedRecord zeroName) = .ok .lt ∧
    zeroName.orderRecord (paddedRecord largestName) = .ok .gt ∧
    ∃ damage, zeroName.orderRecord ⟨[0, 0, 0, 2, 0, 1, 0], []⟩ = .error (.corrupted damage) := by
  obtain ⟨-, hlegible, -, hlaws⟩ := orderRecord_lexicographic (paddedRecord zeroName) largestName
  obtain ⟨-, hbefore, -, -⟩ := hlegible (by decide)
  obtain ⟨hillegible, -⟩ := orderRecord_lexicographic ⟨[0, 0, 0, 2, 0, 1, 0], []⟩ zeroName
  have hzero : (stored (paddedRecord zeroName).key).name.fold = [0x61, 0xFFFF, 0xD800] := by
    decide
  have hlargest : largestName.name.fold = [0x61, 0xFFFF, 0xD800, 0xDFFF] := by decide
  have hlt : largestName.orderRecord (paddedRecord zeroName) = .ok .lt := by
    refine hbefore.mpr (.inr ⟨by decide, ?_⟩)
    rw [hzero, hlargest]
    exact .cons (.cons (.cons .nil))
  obtain ⟨⟨o, ho, hswap⟩, -⟩ := hlaws zeroName largestName largestName
    (paddedRecord zeroName) (paddedRecord largestName)
    ⟨by decide, [0xAA], rfl⟩ ⟨by decide, [0xAA], rfl⟩
  cases hlt.symm.trans ho
  exact ⟨hlt, hswap, hillegible (by decide)⟩

end CatalogKey

end HfsPlus
