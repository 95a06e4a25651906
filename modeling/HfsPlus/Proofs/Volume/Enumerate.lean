import HfsPlus.Proofs.Catalog.Rows

/-!
# Going through a folder

A folder is gone through by position: each step searches for the folder's
thread record anew and counts on from it. In a volume whose catalog is
well-formed, and holds that thread record, this shows the folder's rows, all
of them and no other, in their order, and then finds nothing however far it is
asked to go.

`HasRows.result_entryAt` is the step: what is at a position is read off the
list of the folder's rows. The run, `Cursor.result_list`, is an induction over
the rows that are left, and needs of the positions only that they do not run
over, which so many rows as a tree can hold rules out.
-/

namespace HfsPlus

variable {v : Volume} {leaves : List Node} {rows : List CatalogRow}

namespace Volume

/-! ## One position -/

/-- The record that a search comes to gives an entry if it belongs to the
folder, and ends the enumeration if it does not. -/
theorem result_entryAt_of_hit {folder : Entry} {p : Nat} {hit : Hit}
    {row : CatalogRow} (hread : CatalogRow.ofHit hit = .ok row)
    (hsearch : (v.catalog.search v.device
      (CatalogKey.firstChild folder.id).orderRecord p).result = .ok hit) :
    (v.entryAt folder p).result =
      if row.key.parentId = folder.id then .ok row.entry
      else .error .notFound := by
  obtain ⟨r, hr, hkey, -⟩ := CatalogRow.exists_of_ofHit hread
  rw [entryAt, Run.result_bind_of_ok hsearch, Run.result_bind_of_ok hr,
    Run.result_bind_of_ok hkey]
  split
  · exact CatalogRow.result_entryOf hread
  · rfl

/-- What is at a position of a folder. -/
theorem HasRows.result_entryAt (h : v.HasRows leaves rows) {folder : Entry}
    (hthread : ∃ row ∈ rows, row.key = .firstChild folder.id) (p : Nat) :
    (v.entryAt folder p).result = report (entriesOf rows folder.id)[p]? := by
  obtain ⟨thread, hmem, hkey⟩ := hthread
  obtain ⟨i, hi⟩ := List.mem_iff_getElem?.mp hmem
  have heq : thread.key.order (.firstChild folder.id) = .eq := by
    rw [hkey]
    exact Std.ReflCmp.compare_self
  rw [entriesOf, List.getElem?_map, getElem?_rowsOf h.ascending hi hkey]
  rcases h.search_of_equal hi heq p with
    ⟨hit, found, hfound, hread, hsearch⟩ | ⟨hnone, hsearch⟩
  · rw [result_entryAt_of_hit hread hsearch, hfound]
    by_cases hparent : found.key.parentId = folder.id
    · rw [if_pos hparent, Option.filter_some_pos (by simpa using hparent)]
      rfl
    · rw [if_neg hparent, Option.filter_some_neg (by simpa using hparent)]
      rfl
  · rw [entryAt, Run.result_bind_of_error hsearch, hnone]
    rfl

/-! ## How many rows there can be -/

theorem HasRows.length_le (h : v.HasRows leaves rows) :
    rows.length ≤ 65535 * v.catalog.totalNodes.toNat := by
  have hrecords := Tree.length_records_le leaves
  have hleaves := h.wellFormed.length_le
  rw [h.length_records] at hrecords
  omega

theorem HasRows.length_entriesOf_lt (h : v.HasRows leaves rows) (id : CatalogId) :
    (entriesOf rows id).length < UInt64.size := by
  have hrows := h.length_le
  have htotal := v.catalog.totalNodes.toNat_lt
  have hfilter : (rowsOf rows id).length ≤ rows.length :=
    List.length_filter_le _ rows
  rw [entriesOf, List.length_map, UInt64.size]
  omega

/-! ## The folder's rows in order -/

theorem HasRows.ascending_entries (h : v.HasRows leaves rows) (id : CatalogId) :
    (entriesOf rows id).Pairwise fun a b => a.key.order b.key = .lt := by
  rw [entriesOf, List.pairwise_map]
  simp only [CatalogRow.key_entry]
  exact h.ascending.filter _

/-- The thread record comes first. -/
theorem HasRows.head?_entries (h : v.HasRows leaves rows) {id : CatalogId}
    (hthread : ∃ row ∈ rows, row.key = .firstChild id) :
    (entriesOf rows id).head?.map Entry.key = some (.firstChild id) := by
  obtain ⟨thread, hmem, hkey⟩ := hthread
  obtain ⟨i, hi⟩ := List.mem_iff_getElem?.mp hmem
  have hfirst := getElem?_rowsOf h.ascending hi hkey 0
  rw [Nat.add_zero, hi, Option.filter_some_pos (by simp [hkey, CatalogKey.firstChild])]
    at hfirst
  rw [entriesOf, List.head?_eq_getElem?, List.getElem?_map, hfirst, Option.map_some,
    Option.map_some, CatalogRow.key_entry, hkey]

end Volume

/-! ## The cursor -/

namespace Cursor

variable {c : Cursor} {limit : Nat} {entry : Entry}

theorem fst_next (v : Volume) (c : Cursor) :
    (c.next v).1 = v.entryAt c.folder c.position.toNat := by
  rw [next]
  split <;> rfl

theorem next_of_ok (h : (v.entryAt c.folder c.position.toNat).result = .ok entry) :
    (c.next v).1.result = .ok entry ∧
      (c.next v).2 = { c with position := c.position + 1 } := by
  simp only [next, h]
  exact ⟨trivial, trivial⟩

theorem next_of_error {e : Error}
    (h : (v.entryAt c.folder c.position.toNat).result = .error e) :
    (c.next v).1.result = .error e ∧ (c.next v).2 = c := by
  simp only [next, h]
  exact ⟨trivial, trivial⟩

theorem result_list_of_ok (h : (c.next v).1.result = .ok entry) :
    (c.list v (limit + 1)).result =
      (fun rest : Listing => { rest with entries := entry :: rest.entries }) <$>
        ((c.next v).2.list v limit).result := by
  rw [list, Run.result_bind_of_ok (Run.result_attempt _), h]
  rfl

theorem result_list_of_notFound (h : (c.next v).1.result = .error .notFound) :
    (c.list v (limit + 1)).result =
      .ok { entries := [], ending := .complete, cursor := c } := by
  rw [list, Run.result_bind_of_ok (Run.result_attempt _), h]
  rfl

/-- One step of an enumeration whose positions read off a list. -/
theorem next_of_reads {folder : Entry} {found : List Entry}
    (hread : ∀ p, (v.entryAt folder p).result = report found[p]?) (position : UInt64) :
    ((⟨folder, position⟩ : Cursor).next v).1.result = report found[position.toNat]? ∧
      ((⟨folder, position⟩ : Cursor).next v).2 =
        ⟨folder, if position.toNat < found.length then position + 1 else position⟩ := by
  have hat := hread position.toNat
  by_cases hp : position.toNat < found.length
  · rw [List.getElem?_eq_getElem hp] at hat ⊢
    rw [if_pos hp]
    exact next_of_ok (c := ⟨folder, position⟩) hat
  · rw [List.getElem?_eq_none (Nat.not_lt.mp hp)] at hat ⊢
    rw [if_neg hp]
    exact next_of_error (c := ⟨folder, position⟩) hat

/-- An enumeration whose positions read off a list shows what is left of the
list, provided that its limit reaches past the end. -/
theorem result_list {folder : Entry} {found : List Entry}
    (hread : ∀ p, (v.entryAt folder p).result = report found[p]?)
    (hlength : found.length < UInt64.size) : ∀ {limit p : Nat},
    p ≤ found.length → found.length < p + limit →
    (Cursor.list v limit ⟨folder, UInt64.ofNat p⟩).result =
      .ok {
        entries := found.drop p
        ending := .complete
        cursor := ⟨folder, UInt64.ofNat found.length⟩ } := by
  intro limit
  induction limit with
  | zero =>
    intro p hp hlimit
    omega
  | succ limit ih =>
    intro p hp hlimit
    have hposition : (UInt64.ofNat p).toNat = p :=
      UInt64.toNat_ofNat_of_lt' (Nat.lt_of_le_of_lt hp hlength)
    have hat : (v.entryAt folder (UInt64.ofNat p).toNat).result = report found[p]? := by
      rw [hposition]
      exact hread p
    rcases Nat.lt_or_eq_of_le hp with hlt | rfl
    · rw [List.getElem?_eq_getElem hlt] at hat
      obtain ⟨hresult, hbehind⟩ :=
        next_of_ok (v := v) (c := ⟨folder, UInt64.ofNat p⟩) hat
      have hstep : UInt64.ofNat p + 1 = UInt64.ofNat (p + 1) := by simp
      rw [result_list_of_ok hresult, hbehind, hstep, ih hlt (by omega),
        List.drop_eq_getElem_cons hlt]
      rfl
    · rw [List.getElem?_eq_none (Nat.le_refl _)] at hat
      obtain ⟨hresult, -⟩ :=
        next_of_error (v := v) (c := ⟨folder, UInt64.ofNat found.length⟩) hat
      rw [result_list_of_notFound hresult, List.drop_length]

end Cursor

/-! ## The whole folder -/

namespace Volume

/-- The entries of the folder's rows are what an enumeration shows: one at each
position below their number, and nothing at any other; in strictly ascending
order, so that none comes twice; the thread record first. An enumeration from
the start shows them all and ends behind the last. -/
theorem enumerate_complete (h : v.HasRows leaves rows) (folder : Entry)
    (hthread : ∃ row ∈ rows, row.key = .firstChild folder.id) :
    let found := entriesOf rows folder.id
    (∀ position : UInt64,
      ((⟨folder, position⟩ : Cursor).next v).1.result =
        report found[position.toNat]? ∧
      ((⟨folder, position⟩ : Cursor).next v).2 =
        ⟨folder, if position.toNat < found.length then position + 1 else position⟩) ∧
    found.Pairwise (fun a b => a.key.order b.key = .lt) ∧
    found.head?.map Entry.key = some (.firstChild folder.id) ∧
    ∀ limit, found.length < limit →
      (Cursor.list v limit { folder }).result =
        .ok {
          entries := found
          ending := .complete
          cursor := ⟨folder, UInt64.ofNat found.length⟩ } := by
  intro found
  have hread := h.result_entryAt hthread
  have hlength : found.length < UInt64.size := h.length_entriesOf_lt folder.id
  refine ⟨Cursor.next_of_reads hread, h.ascending_entries folder.id,
    h.head?_entries hthread, fun limit hlimit => ?_⟩
  have hreach : found.length < 0 + limit := (Nat.zero_add limit).symm ▸ hlimit
  exact Cursor.result_list hread hlength (Nat.zero_le _) hreach

/-! ### A sample

The catalog of `Tree.sampleTree`, read. -/

/-- A header that nothing of a catalog depends on. -/
def sampleHeader : VolumeHeader where
  signature := 0x482B
  version := 4
  attributes := 0
  lastMountedVersion := 0
  journalInfoBlock := 0
  createDate := 0
  modifyDate := 0
  backupDate := 0
  checkedDate := 0
  fileCount := 2
  folderCount := 1
  blockSize := 26
  totalBlocks := 6
  freeBlocks := 0
  nextAllocation := 0
  resourceClumpSize := 0
  dataClumpSize := 0
  nextCatalogId := 16
  writeCount := 0
  encodingsBitmap := 0
  finderInfo := .replicate 8 0
  allocationFile := ⟨0, 0, 0, .empty⟩
  extentsFile := ⟨0, 0, 0, .empty⟩
  catalogFile := ⟨208, 0, 8, Tree.sampleTree.fork.extents⟩
  attributesFile := ⟨0, 0, 0, .empty⟩
  startupFile := ⟨0, 0, 0, .empty⟩

def sampleVolume : Volume := ⟨Tree.sampleDevice, sampleHeader, Tree.sampleTree⟩

def sampleRows : List CatalogRow := [
  ⟨.firstChild 2, .folderThread ⟨3, 0, 1, [], by decide⟩⟩,
  ⟨⟨2, [0x41]⟩, .unknown 9⟩,
  ⟨⟨2, [0x62]⟩, .unknown 9⟩,
  ⟨.firstChild 3, .folderThread ⟨3, 0, 2, [], by decide⟩⟩]

theorem sampleRoot_keys : Tree.sampleRoot.hits.map CatalogKey.keyOrder.keyOf =
    [⟨2, []⟩, ⟨2, [0x62]⟩].map .ok := by
  cbv

theorem sampleLeft_keys : Tree.sampleLeft.hits.map CatalogKey.keyOrder.keyOf =
    [⟨2, []⟩, ⟨2, [0x41]⟩].map .ok := by
  cbv

theorem sampleRight_keys : Tree.sampleRight.hits.map CatalogKey.keyOrder.keyOf =
    [⟨2, [0x62]⟩, ⟨3, []⟩].map .ok := by
  cbv

theorem sampleRows_read :
    (Tree.records [Tree.sampleLeft, Tree.sampleRight]).map CatalogRow.ofHit =
      sampleRows.map .ok := by
  cbv

theorem sampleVolume_hasRows :
    sampleVolume.HasRows [Tree.sampleLeft, Tree.sampleRight] sampleRows where
  wellFormed := Tree.sample_wellFormed sampleRoot_keys sampleLeft_keys
    sampleRight_keys (by decide)
  reads := sampleRows_read

/-- The last entry of the root folder lies in the second leaf, and the row
behind it belongs to another folder. -/
theorem enumerate_sample_root :
    ((⟨.root, 2⟩ : Cursor).next sampleVolume).1.result =
      .ok { id := 0, parentId := 2, name := [0x62], kind := .unknown } ∧
    ((⟨.root, 3⟩ : Cursor).next sampleVolume).1.result = .error .notFound := by
  have h := enumerate_complete sampleVolume_hasRows .root
    ⟨sampleRows[0], by decide, rfl⟩
  exact ⟨(h.1 2).1, (h.1 3).1⟩

end Volume

end HfsPlus
