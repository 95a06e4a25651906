import HfsPlus.Proofs.Checked.Search
import HfsPlus.Proofs.Volume.Ends

/-!
# Reading the catalog, checked

Names are compared unit by unit, and a capital's fold is a sum in sixteen bits. No
fold is zero, so the loop that goes on from units that fold to zero never does, and
two names compare as their folds (`compareNames_eq`).

A position in a folder is a count in 64 bits that may have any value, but an entry
is found at few of them: a search that has gone on over so many records has not
found anything (`Tree.skip_lt_of_search`). So the position behind an entry is one
that there is.
-/

namespace HfsPlus

/-- The place behind an entry that is found is the next one. -/
theorem Cursor.map_next (v : Volume) (c : Cursor) :
    (·, (c.next v).2) <$> (c.next v).1 =
      (·, { c with position := c.position + 1 }) <$> v.entryAt c.folder c.position.toNat := by
  rw [next]
  cases h : (v.entryAt c.folder c.position.toNat).result with
  | error e => ext1 <;> simp [h, Except.map]
  | ok entry => rfl

namespace Checked

/-! ## Names -/

/-- Whether a unit is one of the capitals that fold. -/
def isCapital (u : UInt16) : Bool :=
  (0x41 ≤ u && u ≤ 0x5A) || u = 0xC6 || u = 0xD0 || u = 0xD8 || u = 0xDE

/-- A capital is folded to the small letter, which lies 32 places behind it, and zero to the
last unit. -/
def foldUnit (u : UInt16) : Except Trap UInt16 :=
  if u = 0 then
    .ok 0xFFFF
  else if isCapital u then do
    return .ofNat (← add UInt16.size u.toNat 0x20)
  else
    .ok u

/-- The first unit that does not fold to zero, folded, and the units behind it. A
zero stands for none. -/
def nextFolded : List UInt16 → Except Trap (UInt16 × List UInt16)
  | [] => .ok (0, [])
  | u :: rest => do
    let c ← foldUnit u
    if c = 0 then nextFolded rest else return (c, rest)

/-- Compares unit by unit, until two folds differ or the wanted name ends. -/
def compareNames : (rounds : Nat) → (found wanted : List UInt16) → Except Trap Ordering
  | 0, _, _ => .error .endless
  | rounds + 1, found, wanted => do
    let (t, found) ← nextFolded found
    let (s, wanted) ← nextFolded wanted
    if compare t s ≠ .eq ∨ s = 0 then
      return compare t s
    else
      compareNames rounds found wanted

/-- A capital and its small letter lie in the first 256 units. -/
theorem toNat_le_of_isCapital {u : UInt16} (h : isCapital u) : u.toNat ≤ 0xDE := by
  simp only [isCapital, Bool.or_eq_true, Bool.and_eq_true, decide_eq_true_eq,
    UInt16.le_iff_toNat_le, ← UInt16.toNat_inj] at h
  simp at h
  omega

theorem nameFoldUnit_eq (u : UInt16) : Name.foldUnit u =
    if u = 0 then 0xFFFF else if isCapital u then u + 0x20 else u := by
  simp only [Name.foldUnit, isCapital]
  split
  · rfl
  · split
    · next hlatin => simp [hlatin]
    · next hlatin =>
      simp only [hlatin]
      simp

theorem foldUnit_eq_ok (u : UInt16) : foldUnit u = .ok (Name.foldUnit u) := by
  rw [foldUnit, nameFoldUnit_eq]
  split
  · rfl
  · split
    · next hcapital =>
      have hle := toNat_le_of_isCapital hcapital
      have hsum : u.toNat + 0x20 < UInt16.size := by
        have : UInt16.size = 65536 := rfl
        omega
      rw [add_eq_ok hsum, ok_bind, UInt16.ofNat_add, UInt16.ofNat_toNat]
      rfl
    · rfl

theorem foldUnit_ne_zero (u : UInt16) : Name.foldUnit u ≠ 0 := by
  rw [nameFoldUnit_eq]
  split
  · decide
  · split
    · next hcapital =>
      have hle := toNat_le_of_isCapital hcapital
      intro hzero
      have := congrArg UInt16.toNat hzero
      simp [UInt16.toNat_add] at this
      omega
    · assumption

theorem nextFolded_cons (u : UInt16) (rest : List UInt16) :
    nextFolded (u :: rest) = .ok (Name.foldUnit u, rest) := by
  rw [nextFolded, foldUnit_eq_ok, ok_bind, if_neg (foldUnit_ne_zero u)]
  rfl

theorem compareNames_eq_ok : ∀ {rounds : Nat} {found wanted : Name}, wanted.length < rounds →
    compareNames rounds found wanted = .ok (compare found.fold wanted.fold) := by
  intro rounds
  induction rounds with
  | zero =>
    intro found wanted hrounds
    exact absurd hrounds (Nat.not_lt_zero _)
  | succ rounds ih =>
    intro found wanted hrounds
    rw [compareNames]
    cases found with
    | nil =>
      cases wanted with
      | nil => rfl
      | cons b wanted =>
        have hlt : compare 0 (Name.foldUnit b) = .lt :=
          Std.compare_eq_lt.mpr (UInt16.pos_iff_ne_zero.mpr (foldUnit_ne_zero b))
        rw [nextFolded_cons]
        simp only [nextFolded, ok_bind, hlt]
        rfl
    | cons a found =>
      cases wanted with
      | nil =>
        have hgt : compare (Name.foldUnit a) 0 = .gt :=
          Std.compare_eq_gt.mpr (UInt16.pos_iff_ne_zero.mpr (foldUnit_ne_zero a))
        rw [nextFolded_cons]
        simp only [nextFolded, ok_bind, hgt]
        rfl
      | cons b wanted =>
        have hfolds : compare (Name.fold (a :: found)) (Name.fold (b :: wanted)) =
            (compare (Name.foldUnit a) (Name.foldUnit b)).then
              (compare (Name.fold found) (Name.fold wanted)) :=
          List.compare_cons_cons ..
        rw [nextFolded_cons, nextFolded_cons, hfolds]
        simp only [ok_bind, foldUnit_ne_zero, or_false]
        by_cases heq : compare (Name.foldUnit a) (Name.foldUnit b) = .eq
        · rw [if_neg (not_not_intro heq), heq]
          exact ih (Nat.lt_of_succ_lt_succ hrounds)
        · rw [if_pos heq]
          cases hcmp : compare (Name.foldUnit a) (Name.foldUnit b) with
          | lt => rfl
          | eq => exact absurd hcmp heq
          | gt => rfl

/-! ## Keys and records -/

/-- The units of a name, two bytes each. -/
def units : Bytes → Except Trap (List UInt16)
  | hi :: lo :: rest => do
    let unit ← wordOf 2 [hi, lo]
    return .ofNat unit :: (← units rest)
  | _ => .ok []

/-- Reads a key: a parent, the number of units in a name, and as many units. -/
def parseKey (r : KeyedRecord) : Checked CatalogKey := do
  match ← word? 4 r.key 0 with
  | none => Run.fail (.corrupted .shortCatalogKey)
  | some parentId =>
    match ← word? 2 r.key 4 with
    | none => Run.fail (.corrupted .shortCatalogKey)
    | some length =>
      let bytes ← mul UInt64.size 2 length
      let stop ← add UInt64.size 6 bytes
      match slice? r.key 6 stop with
      | none => Run.fail (.corrupted .nameOverrun)
      | some name => return { parentId := .ofNat parentId, name := ← units name }

/-- How a record of the catalog stands to a key. -/
def orderRecord (key : CatalogKey) (r : KeyedRecord) : Checked Ordering := do
  let found ← parseKey r
  if compare found.parentId key.parentId ≠ .eq then
    return compare found.parentId key.parentId
  else
    compareNames (key.name.length + 1) found.name key.name

/-- Reads what is behind a key. The first two bytes say which structure it is. -/
def parseCatalogRecord (data : Bytes) : Checked CatalogRecord := do
  match ← word? 2 data 0 with
  | none => Run.fail (.corrupted .missingRecordType)
  | some code =>
    match RecordType.ofCode? (.ofNat code) with
    | some .folder => return .folder (← FolderRecord.format.read data)
    | some .file => return .file (← FileRecord.format.read data)
    | some .folderThread => return .folderThread (← ThreadRecord.format.read data)
    | some .fileThread => return .fileThread (← ThreadRecord.format.read data)
    | none => return .unknown (.ofNat code)

/-! ## Entries -/

/-- The entry that a record gives. -/
def entryOf (hit : Hit) : Checked Entry := do
  let r ← keyedRecord hit.node hit.index
  let key ← parseKey r
  let record ← parseCatalogRecord r.data
  if let .unknown code := record then
    Run.note (.unknownRecord code hit.node.number)
  return Entry.ofRecord key.parentId key.name record

/-- The entry of this name in a folder. -/
def lookup (v : Volume) (folder : Entry) (name : Name) : Checked Entry := do
  let key : CatalogKey := { parentId := folder.id, name }
  if key.Representable then
    let hit ← search v.device v.catalog (orderRecord key) 0
    let entry ← entryOf hit
    Run.note (.lookedUp folder.id entry)
    return entry
  else
    Run.fail .notFound

/-- The next entry of a folder, and the place behind it. -/
def next (v : Volume) (c : Cursor) : Checked (Entry × Cursor) := do
  let key := CatalogKey.firstChild c.folder.id
  let hit ← search v.device v.catalog (orderRecord key) c.position.toNat
  let r ← keyedRecord hit.node hit.index
  let found ← parseKey r
  if found.parentId = c.folder.id then
    let entry ← entryOf hit
    let position ← add UInt64.size c.position.toNat 1
    return (entry, { c with position := .ofNat position })
  else
    Run.note (.endOfFolder c.folder.id c.position.toNat)
    Run.fail .notFound

/-! ## No traps -/

theorem units_eq_ok (bs : Bytes) : units bs = .ok (BigEndian.units bs) := by
  fun_induction units bs with
  | case1 hi lo rest ih =>
    have hunit : wordOf 2 [hi, lo] = .ok (BigEndian.toNat [hi, lo]) := wordOf_eq_ok rfl
    rw [hunit, ih]
    rfl
  | case2 bs hne =>
    rw [BigEndian.units]
    exact hne

theorem decode_fixedPart {bs : Bytes} (h : 6 ≤ bs.length) : CatalogKey.fixedPart.decode bs =
    .ok ((.ofNat (BigEndian.toNat (bs.take 4)), .ofNat (BigEndian.toNat ((bs.drop 4).take 2))),
      bs.drop 6) := by
  have hparent : Format.uint32.decode bs =
      .ok (.ofNat (BigEndian.toNat (bs.take 4)), bs.drop 4) := by
    rw [Format.Word.decode_eq (f := Format.uint32), if_pos (by omega)]
  have hlength : Format.uint16.decode (bs.drop 4) =
      .ok (.ofNat (BigEndian.toNat ((bs.drop 4).take 2)), (bs.drop 4).drop 2) := by
    rw [Format.Word.decode_eq (f := Format.uint16), List.length_drop, if_pos (by omega)]
  rw [List.drop_drop] at hlength
  simp only [CatalogKey.fixedPart, Format.seq, hparent, bind, Except.bind, hlength]
  rfl

theorem exists_error_of_short {bs : Bytes} (h : bs.length < 6) :
    ∃ field, CatalogKey.fixedPart.decode bs = .error field :=
  (Format.exists_error_iff (f := Format.uint32.seq Format.uint16)).mpr h

theorem parseKey_eq (r : KeyedRecord) : parseKey r = liftM (CatalogKey.ofRecord r) := by
  have hparent : word? 4 r.key 0 = .ok (
      if 4 ≤ r.key.length then some (BigEndian.toNat (r.key.take 4)) else none) :=
    word?_zero (by decide) r.key
  have hlength : word? 2 r.key 4 = .ok (
      if 6 ≤ r.key.length then some (BigEndian.toNat ((r.key.drop 4).take 2)) else none) := by
    rw [word?_eq_ok (by decide), List.extract_eq_take_drop]
  rw [parseKey, CatalogKey.ofRecord, hparent, liftM_ok_bind, hlength]
  by_cases hfixed : 6 ≤ r.key.length
  · have hword : BigEndian.toNat ((r.key.drop 4).take 2) < 65536 :=
      BigEndian.toNat_take_lt 2 _
    have hfront : 4 ≤ r.key.length := by omega
    rw [decode_fixedPart hfixed, if_pos hfront, if_pos hfixed]
    generalize BigEndian.toNat ((r.key.drop 4).take 2) = length at hword
    have hunits : (UInt16.ofNat length).toNat = length := UInt16.toNat_ofNat_of_lt' hword
    have hstop : 6 + 2 * length < UInt64.size := by
      have : UInt64.size = 18446744073709551616 := rfl
      omega
    simp only [liftM_ok_bind, hunits]
    rw [mul_eq_ok (by omega), liftM_ok_bind, add_eq_ok hstop, liftM_ok_bind, List.length_take,
      List.length_drop]
    by_cases hname : 6 + 2 * length ≤ r.key.length
    · rw [slice?_eq_some (Nat.le_add_right _ _) hname, List.extract_eq_take_drop,
        Nat.add_sub_cancel_left, if_neg (by omega)]
      simp only []
      rw [units_eq_ok]
      rfl
    · rw [slice?, if_neg (fun h => hname h.2), if_pos (by omega)]
      rfl
  · obtain ⟨field, hfield⟩ := exists_error_of_short (Nat.not_le.mp hfixed)
    rw [hfield, if_neg hfixed]
    split <;> rfl

theorem orderRecord_eq (key : CatalogKey) (r : KeyedRecord) :
    orderRecord key r = liftM (key.orderRecord r) := by
  rw [orderRecord, CatalogKey.orderRecord, parseKey_eq]
  refine except_bind_eq_liftM fun found _ => ?_
  rw [compareNames_eq_ok (Nat.lt_succ_self _), CatalogKey.order]
  cases hparent : compare found.parentId key.parentId <;> rfl

theorem parseCatalogRecord_eq (data : Bytes) :
    parseCatalogRecord data = liftM (CatalogRecord.parse data) := by
  rw [parseCatalogRecord, CatalogRecord.parse, word?_zero (by decide), liftM_ok_bind,
    Format.Word.decode_eq (f := Format.uint16)]
  by_cases hlength : 2 ≤ data.length
  · rw [if_pos hlength, if_pos hlength]
    simp only []
    cases RecordType.ofCode? (.ofNat (BigEndian.toNat (data.take 2))) with
    | none => rfl
    | some t => cases t <;> exact except_bind_eq_liftM fun _ _ => rfl
  · rw [if_neg hlength, if_neg hlength]
    rfl

theorem entryOf_eq {hit : Hit} (hdata : hit.node.data.size < UInt64.size) :
    entryOf hit = liftM (Volume.entryOf hit) := by
  rw [entryOf, Volume.entryOf, keyedRecord_eq hdata]
  refine bind_eq_liftM fun r _ => ?_
  rw [parseKey_eq]
  refine bind_eq_liftM fun key _ => ?_
  rw [parseCatalogRecord_eq]
  refine bind_eq_liftM fun record _ => ?_
  cases record <;> rfl

theorem lookup_eq (v : Volume) (folder : Entry) (name : Name) :
    lookup v folder name = liftM (v.lookup folder name) := by
  rw [lookup, Volume.lookup]
  split
  · rw [search_eq (orderRecord_eq _)]
    refine bind_eq_liftM fun hit hsearch => ?_
    rw [entryOf_eq (Tree.size_lt_of_search hsearch)]
    exact bind_eq_liftM fun entry _ => rfl
  · rfl

theorem next_eq (v : Volume) (c : Cursor) :
    next v c = liftM ((·, (c.next v).2) <$> (c.next v).1) := by
  rw [c.map_next, Volume.entryAt, map_bind, next, search_eq (orderRecord_eq _)]
  refine bind_eq_liftM fun hit hsearch => ?_
  rw [map_bind, keyedRecord_eq (Tree.size_lt_of_search hsearch)]
  refine bind_eq_liftM fun r _ => ?_
  rw [map_bind, parseKey_eq]
  refine bind_eq_liftM fun found _ => ?_
  have hskip := Tree.skip_lt_of_search hsearch
  have htotal := v.catalog.totalNodes.toNat_lt
  have hposition : c.position.toNat + 1 < UInt64.size := by
    have : UInt64.size = 18446744073709551616 := rfl
    omega
  by_cases hfolder : found.parentId = c.folder.id
  · rw [if_pos hfolder, if_pos hfolder, entryOf_eq (Tree.size_lt_of_search hsearch),
      ← bind_pure_comp]
    refine bind_eq_liftM fun entry _ => ?_
    rw [add_eq_ok hposition, liftM_ok_bind, UInt64.ofNat_add, UInt64.ofNat_toNat]
    rfl
  · rw [if_neg hfolder, if_neg hfolder]
    rfl

end Checked

end HfsPlus
