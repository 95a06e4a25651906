import HfsPlus.Proofs.Tree.Genuine
import HfsPlus.Proofs.Volume.Agree
import HfsPlus.Proofs.Volume.Ends
import HfsPlus.Proofs.Volume.Query

/-!
# What a lookup finds

The catalog may hold anything, in any order, behind any links. Still, a lookup
that finds an entry has come down to a record of a leaf that its comparison
called equal (`Tree.starts_of_search`), and what is called equal is decided by
the key alone: the same parent, and a name that folds alike. The entry is made
from that very record, read a second time (`exists_of_lookup`).

The comparison has of the name that is looked for no more than its fold
(`CatalogKey.orderRecord_congr`). So two names that fold alike are one name to
a search, at every node that it comes to.
-/

namespace HfsPlus

/-! ## Back from the entry to the record -/

/-- Where a search goes on over no record, its hit is the record it came down
to. -/
theorem Tree.starts_of_search {dev : Device} {tree : Tree}
    {order : KeyedRecord → Except Error Ordering} {hit : Hit}
    (h : (tree.search dev order 0).result = .ok hit) :
    Starts (tree.readNode dev) order maxDepth tree.rootNode hit := by
  obtain ⟨-, start, hstart, hadvance⟩ := exists_start_of_search h
  have hstarts := starts_of_descend hstart
  have hlt := hstarts.lt
  rw [result_advance_of_lt (by omega), Nat.add_zero] at hadvance
  cases hadvance
  exact hstarts

theorem CatalogRow.exists_of_entryOf {hit : Hit} {entry : Entry}
    (h : (Volume.entryOf hit).result = .ok entry) :
    ∃ row, ofHit hit = .ok row ∧ entry = row.entry := by
  have hparts := h
  rw [Volume.entryOf, Run.result_bind] at hparts
  obtain ⟨r, hr, hparts⟩ := exists_of_bind_eq_ok hparts
  rw [Run.result_bind] at hparts
  obtain ⟨key, hkey, hparts⟩ := exists_of_bind_eq_ok hparts
  rw [Run.result_bind] at hparts
  obtain ⟨record, hrecord, -⟩ := exists_of_bind_eq_ok hparts
  rw [Run.result_liftM] at hr hkey hrecord
  have hread : ofHit hit = .ok ⟨key, record⟩ := by
    rw [ofHit, hr]
    show (CatalogKey.ofRecord r >>= _) = _
    rw [hkey]
    show (CatalogRecord.parse r.data >>= _) = _
    rw [hrecord]
    rfl
  rw [result_entryOf hread] at h
  cases h
  exact ⟨⟨key, record⟩, hread, rfl⟩

namespace CatalogKey

variable {key : CatalogKey} {r : KeyedRecord}

theorem orderRecord_eq_eq :
    key.orderRecord r = .ok .eq ↔
      ∃ found, ofRecord r = .ok found ∧ found.parentId = key.parentId ∧
        found.name.fold = key.name.fold := by
  rw [orderRecord]
  constructor
  · intro h
    obtain ⟨found, hfound, horder⟩ := exists_of_bind_eq_ok h
    injection horder with horder
    exact ⟨found, hfound, order_eq_eq.mp horder⟩
  · rintro ⟨found, hfound, hsame⟩
    rw [hfound]
    exact congrArg Except.ok (order_eq_eq.mpr hsame)

/-- All that the comparison takes of a name is its fold. -/
theorem orderRecord_congr {other : CatalogKey} (hparent : key.parentId = other.parentId)
    (hfold : key.name.fold = other.name.fold) : key.orderRecord = other.orderRecord := by
  funext r
  simp only [orderRecord, order, hparent, hfold]

end CatalogKey

namespace Volume

variable {v : Volume} {folder entry : Entry} {name : Name}

/-- The record behind an entry that a lookup finds. -/
theorem exists_of_lookup (h : (v.lookup folder name).result = .ok entry) :
    name.length ≤ 255 ∧ ∃ hit row,
      (v.catalog.search v.device (⟨folder.id, name⟩ : CatalogKey).orderRecord 0).result =
        .ok hit ∧
      CatalogRow.ofHit hit = .ok row ∧ entry = row.entry := by
  rw [lookup] at h
  split at h
  · next hname =>
    rw [Run.result_bind] at h
    obtain ⟨hit, hsearch, h⟩ := exists_of_bind_eq_ok h
    rw [Run.result_bind] at h
    obtain ⟨found, hfound, h⟩ := exists_of_bind_eq_ok h
    obtain ⟨row, hrow, rfl⟩ := CatalogRow.exists_of_entryOf hfound
    cases h
    exact ⟨hname, hit, row, hsearch, hrow, rfl⟩
  · cases h

/-- The record lies in a leaf of the catalog, and its key is equal to what was
looked for. -/
theorem key_of_lookup (h : (v.lookup folder name).result = .ok entry) :
    ∃ (number : UInt32) (node : Node) (index : Nat) (r : KeyedRecord),
      (v.catalog.readNode v.device number).result = .ok node ∧ node.kind = .ok .leaf ∧
      index < node.recordCount ∧ node.keyedRecord index = .ok r ∧
      CatalogKey.ofRecord r = .ok entry.key ∧
      entry.parentId = folder.id ∧ entry.name.fold = name.fold := by
  obtain ⟨-, hit, row, hsearch, hrow, rfl⟩ := exists_of_lookup h
  have hstarts := Tree.starts_of_search hsearch
  obtain ⟨r, hr, hkey, -⟩ := CatalogRow.exists_of_ofHit hrow
  obtain ⟨-, -, number, -, hload⟩ := hstarts.below
  obtain ⟨r', hr', hequal⟩ := exists_of_bind_eq_ok hstarts.equal
  cases hr.symm.trans hr'
  obtain ⟨found, hfound, hparent, hfold⟩ := CatalogKey.orderRecord_eq_eq.mp hequal
  cases hkey.symm.trans hfound
  refine ⟨number, hit.node, hit.index, r, hload, hstarts.kind_eq, hstarts.lt, hr, ?_, ?_, ?_⟩
  · rw [hkey, row.key_entry]
  · exact (congrArg CatalogKey.parentId row.key_entry).trans hparent
  · exact (congrArg (·.name.fold) row.key_entry).trans hfold

/-- The record behind an entry that an enumeration shows. -/
theorem exists_of_entryAt {position : Nat} (h : (v.entryAt folder position).result = .ok entry) :
    ∃ hit row, CatalogRow.ofHit hit = .ok row ∧ row.key.parentId = folder.id ∧
      entry = row.entry := by
  rw [entryAt, Run.result_bind] at h
  obtain ⟨hit, -, h⟩ := exists_of_bind_eq_ok h
  rw [Run.result_bind] at h
  obtain ⟨r, hr, h⟩ := exists_of_bind_eq_ok h
  rw [Run.result_bind] at h
  obtain ⟨found, hfound, h⟩ := exists_of_bind_eq_ok h
  split at h
  · next hparent =>
    obtain ⟨row, hrow, rfl⟩ := CatalogRow.exists_of_entryOf h
    -- The key is read twice, from the same record.
    obtain ⟨r', hr', hkey, -⟩ := CatalogRow.exists_of_ofHit hrow
    cases hr.symm.trans hr'
    cases hfound.symm.trans hkey
    exact ⟨hit, row, hrow, hparent, rfl⟩
  · cases h

theorem parentId_of_entryAt {position : Nat}
    (h : (v.entryAt folder position).result = .ok entry) : entry.parentId = folder.id := by
  obtain ⟨hit, row, -, hparent, rfl⟩ := exists_of_entryAt h
  exact (congrArg CatalogKey.parentId row.key_entry).trans hparent

theorem lookup_of_long (v : Volume) (folder : Entry) (h : 255 < name.length) :
    v.lookup folder name = Run.fail .notFound := by
  rw [lookup]
  exact if_neg (Nat.not_le.mpr h)

/-- Whatever the catalog holds, an entry that is found lies in the folder that it
was looked for in, under a name of at most 255 units that folds alike; a longer
name is not found, and no block is read for it. An enumeration shows entries of
its own folder only. -/
theorem found_belongs (v : Volume) (folder : Entry) :
    (∀ (name : Name) (entry : Entry), (v.lookup folder name).result = .ok entry →
      name.length ≤ 255 ∧ entry.parentId = folder.id ∧ entry.name.fold = name.fold) ∧
    (∀ name : Name, 255 < name.length →
      (v.lookup folder name).result = .error .notFound ∧
      (v.lookup folder name).requests = []) ∧
    ∀ (position : UInt64) (entry : Entry),
      ((⟨folder, position⟩ : Cursor).next v).1.result = .ok entry →
      entry.parentId = folder.id := by
  refine ⟨fun name entry h => ?_, fun name hlong => ?_, fun position entry h => ?_⟩
  · obtain ⟨-, -, -, -, -, -, -, -, -, hparent, hfold⟩ := key_of_lookup h
    exact ⟨(exists_of_lookup h).1, hparent, hfold⟩
  · rw [lookup_of_long v folder hlong]
    exact ⟨rfl, rfl⟩
  · cases hat : (v.entryAt folder position.toNat).result with
    | error e =>
      rw [(Cursor.next_of_error (c := ⟨folder, position⟩) hat).1] at h
      cases h
    | ok found =>
      rw [(Cursor.next_of_ok (c := ⟨folder, position⟩) hat).1] at h
      cases h
      exact parentId_of_entryAt hat

/-! ### A sample

The entry A of `circleVolume`, whose leaves run in a circle. -/

def circleEntry : Entry := { id := 0, parentId := 2, name := [0x41], kind := .unknown }

theorem circleVolume_lookup :
    (circleVolume.lookup .root [0x61]).result = .ok circleEntry := by
  decide +kernel

theorem circle_found_belongs :
    circleEntry.parentId = Entry.root.id ∧ circleEntry.name.fold = Name.fold [0x61] ∧
    (circleVolume.lookup .root (List.replicate 256 0x61)).requests = [] := by
  obtain ⟨hfound, hlong, -⟩ := found_belongs circleVolume .root
  obtain ⟨-, hparent, hfold⟩ := hfound _ _ circleVolume_lookup
  have hlength : 255 < (List.replicate 256 (0x61 : UInt16)).length := by
    rw [List.length_replicate]
    decide
  exact ⟨hparent, hfold, (hlong (List.replicate 256 0x61) hlength).2⟩

/-- Names that fold alike are looked up alike, to the last event; and what is
found is spelled as the key in a leaf of the catalog spells it. -/
theorem lookup_folds (v : Volume) (folder : Entry) {name other : Name}
    (hfold : name.fold = other.fold) :
    v.lookup folder name = v.lookup folder other ∧
    ∀ entry, (v.lookup folder name).result = .ok entry →
      ∃ (number : UInt32) (node : Node) (index : Nat) (r : KeyedRecord),
        (v.catalog.readNode v.device number).result = .ok node ∧ node.kind = .ok .leaf ∧
        index < node.recordCount ∧ node.keyedRecord index = .ok r ∧
        CatalogKey.ofRecord r = .ok ⟨entry.parentId, entry.name⟩ := by
  have hlength : name.length = other.length := by
    rw [← Name.length_fold name, hfold, Name.length_fold]
  refine ⟨?_, fun entry h => ?_⟩
  · have horder : (⟨folder.id, name⟩ : CatalogKey).orderRecord =
        (⟨folder.id, other⟩ : CatalogKey).orderRecord :=
      CatalogKey.orderRecord_congr rfl hfold
    have hname : (⟨folder.id, name⟩ : CatalogKey).Representable ↔
        (⟨folder.id, other⟩ : CatalogKey).Representable := by
      rw [CatalogKey.Representable, CatalogKey.Representable, hlength]
    rw [lookup, lookup, horder]
    exact if_congr hname rfl rfl
  · obtain ⟨number, node, index, r, hload, hkind, hlt, hr, hkey, -⟩ := key_of_lookup h
    exact ⟨number, node, index, r, hload, hkind, hlt, hr, hkey⟩

/-- A zero unit and the largest unit are one name, and so are a and A. -/
theorem circle_lookup_folds :
    circleVolume.lookup .root [0x61, 0] = circleVolume.lookup .root [0x41, 0xFFFF] ∧
    ∃ (number : UInt32) (node : Node) (index : Nat) (r : KeyedRecord),
      (circleVolume.catalog.readNode circleVolume.device number).result = .ok node ∧
      node.keyedRecord index = .ok r ∧ CatalogKey.ofRecord r = .ok ⟨2, [0x41]⟩ := by
  obtain ⟨hsame, -⟩ := lookup_folds circleVolume .root
    (show Name.fold [0x61, 0] = Name.fold [0x41, 0xFFFF] by decide)
  obtain ⟨-, hspelling⟩ := lookup_folds circleVolume .root
    (show Name.fold [0x61] = Name.fold [0x41] by decide)
  obtain ⟨number, node, index, r, hload, -, -, hr, hkey⟩ := hspelling _ circleVolume_lookup
  exact ⟨hsame, number, node, index, r, hload, hr, hkey⟩

end Volume

end HfsPlus
