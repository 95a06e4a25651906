import HfsPlus.Proofs.Catalog.Order
import HfsPlus.Proofs.Tree.Scan
import HfsPlus.Volume.Folder

/-!
# The catalog as a list of rows

The records of a well-formed catalog, each read into its key and its contents,
are a list of rows that ascend strictly by key, and for everything that is
asked of a folder this list is the catalog. `HasRows` says that a volume's
catalog reads as such a list; `HasRows.search_of_equal` and
`HasRows.search_of_absent` say what a search in it answers, in terms of the
rows alone.

The rows of one folder stand together, from its thread record on, and
`getElem?_rowsOf` finds them there: counting on from the thread record comes
to the folder's rows one after another, and then to a row of some other folder
or to the end.
-/

namespace HfsPlus

/-- A leaf record of the catalog, read. -/
structure CatalogRow where
  /-- The key in front. -/
  key : CatalogKey
  /-- What is behind it. -/
  record : CatalogRecord
deriving DecidableEq

/-- The key that an entry was found under. -/
def Entry.key (e : Entry) : CatalogKey := ⟨e.parentId, e.name⟩

namespace CatalogRow

/-- Reads a record that has been taken apart. -/
def ofKeyedRecord (r : KeyedRecord) : Except Error CatalogRow := do
  let key ← CatalogKey.ofRecord r
  let record ← CatalogRecord.parse r.data
  return { key, record }

/-- Reads a record. -/
def ofHit (hit : Hit) : Except Error CatalogRow := hit.keyedRecord >>= ofKeyedRecord

/-- The entry that a row gives. -/
def entry (row : CatalogRow) : Entry :=
  Entry.ofRecord row.key.parentId row.key.name row.record

@[simp] theorem key_entry (row : CatalogRow) : row.entry.key = row.key := by
  obtain ⟨key, record⟩ := row
  cases record <;> rfl

theorem exists_of_ofHit {hit : Hit} {row : CatalogRow} (h : ofHit hit = .ok row) :
    ∃ r, hit.keyedRecord = .ok r ∧ CatalogKey.ofRecord r = .ok row.key ∧
      CatalogRecord.parse r.data = .ok row.record := by
  obtain ⟨r, hr, h⟩ := exists_of_bind_eq_ok h
  obtain ⟨key, hkey, h⟩ := exists_of_bind_eq_ok h
  obtain ⟨record, hrecord, h⟩ := exists_of_bind_eq_ok h
  cases h
  exact ⟨r, hr, hkey, hrecord⟩

theorem keyOf_of_ofHit {hit : Hit} {row : CatalogRow} (h : ofHit hit = .ok row) :
    CatalogKey.keyOrder.keyOf hit = .ok row.key := by
  obtain ⟨r, hr, hkey, -⟩ := exists_of_ofHit h
  rw [KeyOrder.keyOf, hr]
  exact hkey

theorem keys_of_reads {hits : List Hit} {rows : List CatalogRow}
    (h : hits.map ofHit = rows.map .ok) :
    hits.map CatalogKey.keyOrder.keyOf = (rows.map key).map .ok := by
  induction hits generalizing rows with
  | nil =>
    cases rows with
    | nil => rfl
    | cons _ _ => cases h
  | cons hit hits ih =>
    cases rows with
    | nil => cases h
    | cons row rows =>
      obtain ⟨hfirst, hrest⟩ := List.cons.inj h
      rw [List.map_cons, List.map_cons, List.map_cons, keyOf_of_ofHit hfirst, ih hrest]

/-- A record that reads as a row gives the entry of that row. -/
theorem result_entryOf {hit : Hit} {row : CatalogRow} (h : ofHit hit = .ok row) :
    (Volume.entryOf hit).result = .ok row.entry := by
  obtain ⟨r, hr, hkey, hrecord⟩ := exists_of_ofHit h
  rw [Volume.entryOf, Run.result_bind_of_ok hr, Run.result_bind_of_ok hkey,
    Run.result_bind_of_ok hrecord]
  cases hc : row.record <;> simp [entry, hc, Except.map]

end CatalogRow

/-! ## Rows and searches -/

namespace Volume

variable {v : Volume} {leaves : List Node} {rows : List CatalogRow}

/-- The catalog of a volume is well-formed, and its leaf records read as these
rows. -/
structure HasRows (v : Volume) (leaves : List Node) (rows : List CatalogRow) :
    Prop where
  wellFormed : v.catalog.WellFormed v.device CatalogKey.keyOrder leaves
  reads : (Tree.records leaves).map CatalogRow.ofHit = rows.map .ok

/-- The place of a row is that of a record which reads as it. -/
theorem HasRows.exists_hit (h : v.HasRows leaves rows) {i : Nat} {row : CatalogRow}
    (hi : rows[i]? = some row) :
    ∃ hit, (Tree.records leaves)[i]? = some hit ∧ CatalogRow.ofHit hit = .ok row := by
  have hmap := congrArg (fun l => l[i]?) h.reads
  simp only [List.getElem?_map, hi, Option.map_some] at hmap
  exact Option.map_eq_some_iff.mp hmap

theorem HasRows.length_records (h : v.HasRows leaves rows) :
    (Tree.records leaves).length = rows.length := by
  simpa using congrArg List.length h.reads

theorem HasRows.exists_row (h : v.HasRows leaves rows) {hit : Hit}
    (hmem : hit ∈ Tree.records leaves) :
    ∃ row ∈ rows, CatalogRow.ofHit hit = .ok row := by
  have hread : CatalogRow.ofHit hit ∈ rows.map .ok :=
    h.reads ▸ List.mem_map_of_mem hmem
  obtain ⟨row, hrow, heq⟩ := List.mem_map.mp hread
  exact ⟨row, hrow, heq.symm⟩

theorem HasRows.ascending (h : v.HasRows leaves rows) :
    rows.Pairwise fun a b => a.key.order b.key = .lt := by
  have hkeys := CatalogRow.keys_of_reads h.reads
  exact List.pairwise_map.mp ((KeyOrder.pairwise_before_iff hkeys).mp h.wellFormed.ascending)

/-- Where row `i` has an equal key, what a search reports is a record that
reads as the row `skip` places behind it. -/
theorem HasRows.search_of_equal (h : v.HasRows leaves rows) {key : CatalogKey}
    {i : Nat} {row : CatalogRow} (hi : rows[i]? = some row)
    (heq : row.key.order key = .eq) (skip : Nat) :
    (∃ hit found, rows[i + skip]? = some found ∧ CatalogRow.ofHit hit = .ok found ∧
      (v.catalog.search v.device key.orderRecord skip).result = .ok hit) ∨
    (rows[i + skip]? = none ∧
      (v.catalog.search v.device key.orderRecord skip).result =
        .error .notFound) := by
  obtain ⟨hit, hhit, hread⟩ := h.exists_hit hi
  have hprobe := KeyOrder.probe_of_keyOf (CatalogRow.keyOf_of_ofHit hread) key
  rw [CatalogKey.keyOrder_order,
    show CatalogKey.keyOrder.cmp row.key key = .eq from heq] at hprobe
  have hsearch := h.wellFormed.result_search_of_equal skip hhit hprobe
  rw [CatalogKey.keyOrder_order] at hsearch
  cases hplace : rows[i + skip]? with
  | none =>
    refine .inr ⟨rfl, ?_⟩
    rw [hsearch, List.getElem?_eq_none_iff.mpr]
    · rfl
    · rw [h.length_records]
      exact List.getElem?_eq_none_iff.mp hplace
  | some found =>
    obtain ⟨hit', hhit', hread'⟩ := h.exists_hit hplace
    rw [hhit'] at hsearch
    exact .inl ⟨hit', found, rfl, hread', hsearch⟩

/-- Where no row has an equal key, a search finds nothing. -/
theorem HasRows.search_of_absent (h : v.HasRows leaves rows) {key : CatalogKey}
    (hall : ∀ row ∈ rows, row.key.order key ≠ .eq) (skip : Nat) :
    (v.catalog.search v.device key.orderRecord skip).result = .error .notFound := by
  rw [← CatalogKey.keyOrder_order]
  refine h.wellFormed.result_search_of_absent skip fun hit hmem heq => ?_
  obtain ⟨row, hrow, hread⟩ := h.exists_row hmem
  rw [KeyOrder.probe_of_keyOf (CatalogRow.keyOf_of_ofHit hread)] at heq
  injection heq with heq
  exact hall row hrow heq

end Volume

/-! ## The rows of a folder -/

/-- The rows with this parent, in order. -/
def rowsOf (rows : List CatalogRow) (id : CatalogId) : List CatalogRow :=
  rows.filter fun row => row.key.parentId = id

/-- The entries that those rows give. -/
def entriesOf (rows : List CatalogRow) (id : CatalogId) : List Entry :=
  (rowsOf rows id).map CatalogRow.entry

theorem mem_entriesOf {rows : List CatalogRow} {id : CatalogId} {e : Entry} :
    e ∈ entriesOf rows id ↔ ∃ row ∈ rows, row.key.parentId = id ∧ row.entry = e := by
  rw [entriesOf, List.mem_map]
  constructor
  · rintro ⟨row, hrow, heq⟩
    obtain ⟨hmem, hparent⟩ := List.mem_filter.mp hrow
    exact ⟨row, hmem, of_decide_eq_true hparent, heq⟩
  · rintro ⟨row, hmem, hparent, heq⟩
    exact ⟨row, List.mem_filter.mpr ⟨hmem, decide_eq_true hparent⟩, heq⟩

/-- Filtering a list whose hits stand in front keeps them in their places. -/
theorem getElem?_filter_of_pairwise {α : Type} {p : α → Bool} {l : List α}
    (h : l.Pairwise fun a b => p b → p a) (i : Nat) :
    (l.filter p)[i]? = l[i]?.filter p := by
  induction l generalizing i with
  | nil => rfl
  | cons a rest ih =>
    obtain ⟨hfirst, hrest⟩ := List.pairwise_cons.mp h
    by_cases ha : p a
    · rw [List.filter_cons_of_pos ha]
      cases i with
      | zero => exact (Option.filter_some_pos ha).symm
      | succ i => exact ih hrest i
    · have hnone : ∀ b ∈ a :: rest, ¬ p b := by
        intro b hb hp
        rcases List.mem_cons.mp hb with rfl | hb
        · exact ha hp
        · exact ha (hfirst b hb hp)
      rw [List.filter_eq_nil_iff.mpr hnone]
      cases hi : (a :: rest)[i]? with
      | none => rfl
      | some b =>
        have hb := hnone b (List.mem_of_getElem? hi)
        exact (Option.filter_some_neg (Bool.eq_false_iff.mpr hb)).symm

theorem getElem?_rowsOf {rows : List CatalogRow} {id : CatalogId}
    (hasc : rows.Pairwise fun a b => a.key.order b.key = .lt) {i : Nat}
    {thread : CatalogRow} (hi : rows[i]? = some thread)
    (hthread : thread.key = .firstChild id) (p : Nat) :
    (rowsOf rows id)[p]? =
      rows[i + p]?.filter fun row => row.key.parentId = id := by
  obtain ⟨hlt, rfl⟩ := List.getElem?_eq_some_iff.mp hi
  have hrest : rows.drop i = rows[i] :: rows.drop (i + 1) :=
    List.drop_eq_getElem_cons hlt
  have hasc' := hasc
  rw [← List.take_append_drop i rows] at hasc'
  obtain ⟨-, hpost, hcross⟩ := List.pairwise_append.mp hasc'
  -- In front of the thread record no row has this parent.
  have hfront : (rows.take i).filter (fun row => row.key.parentId = id) = [] := by
    refine List.filter_eq_nil_iff.mpr fun row hrow => ?_
    have hbefore := hcross row hrow rows[i] (hrest ▸ List.mem_cons_self)
    rw [hthread] at hbefore
    simpa using CatalogKey.parentId_ne_of_lt_firstChild hbefore
  -- From it on no row has a smaller one.
  have hleast : ∀ row ∈ rows.drop i, id ≤ row.key.parentId := by
    intro row hrow
    rw [hrest] at hrow hpost
    rcases List.mem_cons.mp hrow with rfl | hrow
    · rw [hthread]
      exact UInt32.le_refl _
    · have hbehind := (List.pairwise_cons.mp hpost).1 row hrow
      rw [hthread] at hbehind
      exact CatalogKey.parentId_le_of_lt hbehind
  have hprefix : (rows.drop i).Pairwise fun a b =>
      decide (b.key.parentId = id) → decide (a.key.parentId = id) := by
    refine hpost.imp_of_mem fun {a b} ha _ hab hb => ?_
    rw [decide_eq_true_eq] at hb ⊢
    have hle := CatalogKey.parentId_le_of_lt hab
    rw [hb] at hle
    exact UInt32.le_antisymm hle (hleast a ha)
  have hrows : rowsOf rows id =
      (rows.drop i).filter fun row => row.key.parentId = id := by
    rw [rowsOf, ← List.take_append_drop i rows, List.filter_append, hfront,
      List.nil_append, List.take_append_drop]
  rw [hrows, getElem?_filter_of_pairwise hprefix, List.getElem?_drop]

end HfsPlus
