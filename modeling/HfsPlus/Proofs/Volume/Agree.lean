import HfsPlus.Proofs.Volume.Enumerate

/-!
# Looking up and going through agree

An entry of a folder is reached in two ways, by name with one search for its
key, and by position with a search for the folder's thread record that counts
on. In a well-formed catalog both read the same list. Position `i` shows its
element `i`; a name finds its first element whose name folds alike
(`HasRows.result_lookup`), and since the list ascends strictly by parent and
folded name there is no second one (`HasRows.place_unique`).

A name too long for the volume is never searched for. That finds the same,
because folding keeps the length of a name and no row has one so long.
-/

namespace HfsPlus

variable {v : Volume} {leaves : List Node} {rows : List CatalogRow}

theorem Name.length_fold (name : Name) : name.fold.length = name.length :=
  List.length_map _

namespace Volume

theorem result_lookup_of_hit {folder : Entry} {name : Name} {hit : Hit}
    {row : CatalogRow}
    (hname : (⟨folder.id, name⟩ : CatalogKey).Representable)
    (hread : CatalogRow.ofHit hit = .ok row)
    (hsearch : (v.catalog.search v.device
      (⟨folder.id, name⟩ : CatalogKey).orderRecord 0).result = .ok hit) :
    (v.lookup folder name).result = .ok row.entry := by
  rw [lookup, if_pos hname, Run.result_bind_of_ok hsearch,
    Run.result_bind_of_ok (CatalogRow.result_entryOf hread)]
  rfl

/-- A row of the folder is found by every name that folds alike. -/
theorem HasRows.result_lookup_of_row (h : v.HasRows leaves rows)
    (hnames : ∀ row ∈ rows, row.key.Representable) {folder : Entry} {name : Name}
    {row : CatalogRow} (hmem : row ∈ rows) (hparent : row.key.parentId = folder.id)
    (hfold : row.key.name.fold = name.fold) :
    (v.lookup folder name).result = .ok row.entry := by
  have hname : (⟨folder.id, name⟩ : CatalogKey).Representable := by
    have hlength := congrArg List.length hfold
    rw [Name.length_fold, Name.length_fold] at hlength
    rw [CatalogKey.Representable, ← hlength]
    exact hnames row hmem
  have heq : row.key.order ⟨folder.id, name⟩ = .eq :=
    CatalogKey.order_eq_eq.mpr ⟨hparent, hfold⟩
  obtain ⟨i, hi⟩ := List.mem_iff_getElem?.mp hmem
  have hsearch := h.search_of_equal hi heq 0
  rw [Nat.add_zero, hi] at hsearch
  rcases hsearch with ⟨hit, found, hfound, hread, hsearch⟩ | ⟨hnone, -⟩
  · cases hfound
    exact result_lookup_of_hit hname hread hsearch
  · cases hnone

theorem HasRows.result_lookup_of_absent (h : v.HasRows leaves rows) {folder : Entry}
    {name : Name}
    (hall : ∀ row ∈ rows, row.key.parentId = folder.id →
      row.key.name.fold ≠ name.fold) :
    (v.lookup folder name).result = .error .notFound := by
  have habsent : ∀ row ∈ rows, row.key.order ⟨folder.id, name⟩ ≠ .eq := by
    intro row hmem heq
    obtain ⟨hparent, hfold⟩ := CatalogKey.order_eq_eq.mp heq
    exact hall row hmem hparent hfold
  rw [lookup]
  split
  · rw [Run.result_bind_of_error (h.search_of_absent habsent 0)]
  · rfl

/-- Looking up a name is finding the first entry of the folder whose name folds
alike. -/
theorem HasRows.result_lookup (h : v.HasRows leaves rows)
    (hnames : ∀ row ∈ rows, row.key.Representable) (folder : Entry) (name : Name) :
    (v.lookup folder name).result =
      report ((entriesOf rows folder.id).find? fun e => e.name.fold = name.fold) := by
  have hname : ∀ row : CatalogRow, row.entry.name = row.key.name := fun row =>
    congrArg CatalogKey.name row.key_entry
  cases hfind : (entriesOf rows folder.id).find? fun e =>
      decide (e.name.fold = name.fold) with
  | some e =>
    obtain ⟨row, hmem, hparent, rfl⟩ :=
      mem_entriesOf.mp (List.mem_of_find?_eq_some hfind)
    have hmatch := List.find?_some hfind
    have hfold : row.entry.name.fold = name.fold := of_decide_eq_true hmatch
    rw [hname] at hfold
    exact h.result_lookup_of_row hnames hmem hparent hfold
  | none =>
    refine h.result_lookup_of_absent fun row hmem hparent hfold => ?_
    have hentry := mem_entriesOf.mpr ⟨row, hmem, hparent, rfl⟩
    refine List.find?_eq_none.mp hfind _ hentry (decide_eq_true ?_)
    rw [hname]
    exact hfold

/-- No two places of a folder hold names that fold alike. -/
theorem HasRows.place_unique (h : v.HasRows leaves rows) {id : CatalogId}
    {i j : Nat} {d e : Entry}
    (hi : (entriesOf rows id)[i]? = some d)
    (hj : (entriesOf rows id)[j]? = some e)
    (hfold : d.name.fold = e.name.fold) : i = j := by
  have hparent : ∀ e ∈ entriesOf rows id, e.key.parentId = id := by
    intro e he
    obtain ⟨row, -, hid, rfl⟩ := mem_entriesOf.mp he
    rw [CatalogRow.key_entry, hid]
  have heq : d.key.order e.key = .eq := by
    refine CatalogKey.order_eq_eq.mpr ⟨?_, hfold⟩
    rw [hparent d (List.mem_of_getElem? hi), hparent e (List.mem_of_getElem? hj)]
  have hasc := List.pairwise_iff_getElem.mp (h.ascending_entries id)
  obtain ⟨hli, rfl⟩ := List.getElem?_eq_some_iff.mp hi
  obtain ⟨hlj, rfl⟩ := List.getElem?_eq_some_iff.mp hj
  rcases Nat.lt_trichotomy i j with hij | hij | hij
  · rw [hasc i j hli hlj hij] at heq
    cases heq
  · exact hij
  · have hsymm := Std.OrientedCmp.eq_symm heq
    rw [hasc j i hlj hli hij] at hsymm
    cases hsymm

/-- So the name of an entry finds that entry and no other. -/
theorem HasRows.find?_of_place (h : v.HasRows leaves rows) {id : CatalogId} {i : Nat}
    {entry : Entry} (hi : (entriesOf rows id)[i]? = some entry) :
    ((entriesOf rows id).find? fun e => e.name.fold = entry.name.fold) =
      some entry := by
  cases hfind : (entriesOf rows id).find? fun e =>
      decide (e.name.fold = entry.name.fold) with
  | none =>
    have hne := List.find?_eq_none.mp hfind entry (List.mem_of_getElem? hi)
    exact absurd (decide_eq_true rfl) hne
  | some found =>
    have hmatch := List.find?_some hfind
    obtain ⟨j, hj⟩ := List.mem_iff_getElem?.mp (List.mem_of_find?_eq_some hfind)
    have hsame := h.place_unique hj hi (of_decide_eq_true hmatch)
    rw [hsame, hi] at hj
    exact hj.symm

/-- An enumeration shows at a position what the list of the folder's entries has
there. -/
theorem HasRows.shown_iff (h : v.HasRows leaves rows) {folder : Entry}
    (hthread : ∃ row ∈ rows, row.key = .firstChild folder.id)
    {position : UInt64} {entry : Entry} :
    ((⟨folder, position⟩ : Cursor).next v).1.result = .ok entry ↔
      (entriesOf rows folder.id)[position.toNat]? = some entry := by
  rw [(Cursor.next_of_reads (h.result_entryAt hthread) position).1, report_eq_ok]

/-- What an enumeration shows at any position is what looking up its name
finds; what a lookup finds is shown at one position and no other; and where it
finds nothing, no entry is shown whose name folds alike. -/
theorem lookup_agrees_with_enumeration (h : v.HasRows leaves rows)
    (hnames : ∀ row ∈ rows, row.key.Representable) (folder : Entry)
    (hthread : ∃ row ∈ rows, row.key = .firstChild folder.id) :
    (∀ (position : UInt64) (entry : Entry),
      ((⟨folder, position⟩ : Cursor).next v).1.result = .ok entry →
      (v.lookup folder entry.name).result = .ok entry) ∧
    ∀ name : Name,
      (∀ entry, (v.lookup folder name).result = .ok entry →
        ∃ position : UInt64,
          ((⟨folder, position⟩ : Cursor).next v).1.result = .ok entry ∧
          ∀ other : UInt64,
            ((⟨folder, other⟩ : Cursor).next v).1.result = .ok entry →
            other = position) ∧
      ((v.lookup folder name).result = .error .notFound →
        ∀ (position : UInt64) (entry : Entry),
          ((⟨folder, position⟩ : Cursor).next v).1.result = .ok entry →
          entry.name.fold ≠ name.fold) := by
  refine ⟨fun position entry hshown => ?_, fun name => ⟨fun entry hlookup => ?_,
    fun hlookup position entry hshown hfold => ?_⟩⟩
  · rw [h.result_lookup hnames, report_eq_ok]
    exact h.find?_of_place ((h.shown_iff hthread).mp hshown)
  · rw [h.result_lookup hnames, report_eq_ok] at hlookup
    obtain ⟨i, hi⟩ := List.mem_iff_getElem?.mp (List.mem_of_find?_eq_some hlookup)
    have hlength : i < UInt64.size := by
      obtain ⟨hlt, -⟩ := List.getElem?_eq_some_iff.mp hi
      exact Nat.lt_trans hlt (h.length_entriesOf_lt folder.id)
    have hposition : (UInt64.ofNat i).toNat = i := UInt64.toNat_ofNat_of_lt' hlength
    refine ⟨UInt64.ofNat i, (h.shown_iff hthread).mpr (hposition.symm ▸ hi), ?_⟩
    intro other hother
    have hsame := h.place_unique ((h.shown_iff hthread).mp hother) hi rfl
    exact UInt64.toNat_inj.mp (hsame.trans hposition.symm)
  · rw [h.result_lookup hnames, report_eq_notFound] at hlookup
    have hplace := (h.shown_iff hthread).mp hshown
    have hne := List.find?_eq_none.mp hlookup entry (List.mem_of_getElem? hplace)
    exact hne (decide_eq_true hfold)

/-- Both ways lead to the last entry of the sample's root folder. -/
theorem lookup_sample_shown :
    (∀ row ∈ sampleRows, row.key.Representable) ∧
    (sampleVolume.lookup .root [0x62]).result =
      .ok { id := 0, parentId := 2, name := [0x62], kind := .unknown } := by
  have hnames : ∀ row ∈ sampleRows, row.key.Representable := by decide
  have hthread : ∃ row ∈ sampleRows, row.key = .firstChild Entry.root.id :=
    ⟨sampleRows[0], by decide, rfl⟩
  obtain ⟨hshown, -⟩ :=
    lookup_agrees_with_enumeration sampleVolume_hasRows hnames .root hthread
  exact ⟨hnames, hshown 2 _ ((sampleVolume_hasRows.shown_iff hthread).mpr rfl)⟩

end Volume

end HfsPlus
