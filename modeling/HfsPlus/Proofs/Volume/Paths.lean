import HfsPlus.Proofs.Volume.Agree
import HfsPlus.Proofs.Volume.Packed
import HfsPlus.Volume.Path

/-!
# What listing reaches, a path reaches

Whoever lists folders goes from the root into one of the entries shown, from
there into one of those, and so on. A `Route` is such a way, by the names met on
it. A path spells the names (`Spells`), and has slashes between them as it likes.

Two things bring the one to the other. Splitting a path at its slashes is
additive (`pathNames_slash`), so it gives back the names that were spelled,
whatever slashes there are besides. And each name, looked up where it was shown,
finds what was shown (`HasRows.result_lookup_of_shown`), so the walk goes the
same way as the route.
-/

namespace HfsPlus.Volume

variable {v : Volume} {leaves : List Node} {rows : List CatalogRow}

/-! ## Paths as lists of names -/

/-- A text that can stand between two slashes. -/
structure IsComponent (name : String) : Prop where
  ne_empty : name.toList ≠ []
  no_slash : '/' ∉ name.toList

/-- The path is made of these names, a slash between any two, and no others than
empty ones besides. -/
inductive Spells : String → List String → Prop where
  | empty : Spells "" []
  | name {name : String} (component : IsComponent name) : Spells name [name]
  | slash {path rest : String} {names more : List String} (front : Spells path names)
      (back : Spells rest more) : Spells (path ++ "/" ++ rest) (names ++ more)

theorem pathNames_slash (path rest : String) :
    pathNames (path ++ "/" ++ rest) = pathNames path ++ pathNames rest := by
  have hlist : (path ++ "/" ++ rest).toList = path.toList ++ '/' :: rest.toList := by
    simp
  rw [pathNames, hlist, List.splitOn_append_cons_self, List.filter_append, List.map_append]
  rfl

theorem pathNames_component {name : String} (h : IsComponent name) :
    pathNames name = [Text.Utf16.encode name] := by
  rw [pathNames, List.splitOn_eq_singleton h.no_slash,
    List.filter_cons_of_pos (by simpa using h.ne_empty)]
  rfl

theorem Spells.pathNames_eq {path : String} {names : List String} (h : Spells path names) :
    pathNames path = names.map Text.Utf16.encode := by
  induction h with
  | empty => rfl
  | name component => exact pathNames_component component
  | slash _ _ ih ihrest => rw [pathNames_slash, ih, ihrest, List.map_append]

/-- Names with a slash between any two are spelled. -/
theorem spells_intercalate {names : List String} (h : ∀ name ∈ names, IsComponent name) :
    Spells ("/".intercalate names) names := by
  induction names with
  | nil => exact .empty
  | cons name rest ih =>
    obtain ⟨hname, hrest⟩ := List.forall_mem_cons.mp h
    cases rest with
    | nil => exact String.intercalate_singleton ▸ .name hname
    | cons _ _ => exact String.intercalate_cons_cons ▸ .slash (.name hname) (ih hrest)

/-- A path without names leads to the root. -/
theorem lookupPath_of_nameless (v : Volume) {path : String} (h : Spells path []) :
    v.lookupPath path = pure .root := by
  rw [lookupPath, h.pathNames_eq]
  rfl

/-- A path with one name is a lookup in the root. -/
theorem result_lookupPath_of_component (v : Volume) {path name : String}
    (h : Spells path [name]) :
    (v.lookupPath path).result = (v.lookup .root (Text.Utf16.encode name)).result := by
  rw [lookupPath, h.pathNames_eq, List.map_singleton, walk, List.foldlM_cons, enter,
    if_pos (show Entry.root.isFolder = true from rfl)]
  exact congrArg Run.result (bind_pure _)

/-! ## Routes -/

/-- A way down from a folder, by the names of the entries that it goes through.
Each is shown by an enumeration of the one before. -/
inductive Route (v : Volume) : Entry → List String → Entry → Prop where
  | here {entry : Entry} : Route v entry [] entry
  | step {folder next last : Entry} {position : UInt64} {name : String} {names : List String}
      (isFolder : folder.isFolder = true)
      (shown : ((⟨folder, position⟩ : Cursor).next v).1.result = .ok next)
      (spelled : Text.Utf16.encode name = next.name) (component : IsComponent name)
      (rest : Route v next names last) : Route v folder (name :: names) last

theorem Route.isComponent {start last : Entry} {names : List String}
    (h : Route v start names last) : ∀ name ∈ names, IsComponent name := by
  induction h with
  | here => simp
  | step _ _ _ component _ ih => simpa using ⟨component, ih⟩

/-- An enumeration that shows anything has found the folder's thread record. -/
theorem HasRows.exists_thread (h : v.HasRows leaves rows) {folder entry : Entry} {p : Nat}
    (hentry : (v.entryAt folder p).result = .ok entry) :
    ∃ row ∈ rows, row.key = .firstChild folder.id := by
  refine Classical.byContradiction fun hnone => ?_
  have habsent : ∀ row ∈ rows, row.key.order (.firstChild folder.id) ≠ .eq := by
    intro row hmem heq
    obtain ⟨hparent, hfold⟩ := CatalogKey.order_eq_eq.mp heq
    have hname : row.key.name = [] := List.map_eq_nil_iff.mp hfold
    exact hnone ⟨row, hmem, congr (congrArg CatalogKey.mk hparent) hname⟩
  rw [entryAt, Run.result_bind_of_error (h.search_of_absent habsent p)] at hentry
  cases hentry

theorem HasRows.result_lookup_of_shown (h : v.HasRows leaves rows)
    (hnames : ∀ row ∈ rows, row.key.Representable) {folder entry : Entry} {position : UInt64}
    (hshown : ((⟨folder, position⟩ : Cursor).next v).1.result = .ok entry) :
    (v.lookup folder entry.name).result = .ok entry := by
  cases hat : (v.entryAt folder position.toNat).result with
  | error e =>
    rw [(Cursor.next_of_error (c := ⟨folder, position⟩) hat).1] at hshown
    cases hshown
  | ok found =>
    rw [h.result_lookup hnames, report_eq_ok]
    exact h.find?_of_place ((h.shown_iff (h.exists_thread hat)).mp hshown)

theorem HasRows.result_walk_of_route (h : v.HasRows leaves rows)
    (hnames : ∀ row ∈ rows, row.key.Representable) {start last : Entry} {names : List String}
    (hroute : Route v start names last) :
    (v.walk start (names.map Text.Utf16.encode)).result = .ok last := by
  induction hroute with
  | here => rfl
  | @step folder next last position name names isFolder shown spelled _ _ ih =>
    have henter : (v.enter folder (Text.Utf16.encode name)).result = .ok next := by
      rw [enter, if_pos isFolder, spelled]
      exact h.result_lookup_of_shown hnames shown
    rw [List.map_cons, walk, List.foldlM_cons, Run.result_bind_of_ok henter]
    exact ih

/-- In a well-formed catalog, what is reached from the root by listing one folder
after another is found by each path that spells the names on the way, with
slashes in front, between and behind as many as there may be. -/
theorem lookupPath_of_route (h : v.HasRows leaves rows)
    (hnames : ∀ row ∈ rows, row.key.Representable) {names : List String} {last : Entry}
    (hroute : Route v .root names last) :
    (v.lookupPath ("/".intercalate names)).result = .ok last ∧
    ∀ path, Spells path names → (v.lookupPath path).result = .ok last := by
  have hspelled : ∀ path, Spells path names → (v.lookupPath path).result = .ok last := by
    intro path hpath
    rw [lookupPath, hpath.pathNames_eq]
    exact h.result_walk_of_route hnames hroute
  exact ⟨hspelled _ (spells_intercalate hroute.isComponent), hspelled⟩

/-! ### A sample

The folder d of the root with a file f in it. -/

def foldersRecord : FolderRecord where
  recordType := 1
  flags := 0
  valence := 0
  folderId := 16
  createDate := 0
  contentModDate := 0
  attributeModDate := 0
  accessDate := 0
  backupDate := 0
  permissions := ⟨0, 0, 0, 0, 0, 0⟩
  userInfo := ⟨⟨0, 0, 0, 0⟩, 0, ⟨0, 0⟩, 0⟩
  finderInfo := ⟨⟨0, 0⟩, 0, 0, 0, 0⟩
  textEncoding := 0
  reserved := 0

theorem length_nil_lt : ([] : Name).length < 65536 := by
  decide

/-- The leaf has the thread records of both folders, each in front of an entry. -/
def foldersContents : VolumeContents where
  leaf := {
    forwardLink := 0
    backwardLink := 0
    kind := .leaf
    height := 1
    reserved := 0
    records := [
      [0, 6, 0, 0, 0, 2, 0, 0, 0, 3, 0, 0, 0, 0, 0, 1, 0, 0],
      [0, 8, 0, 0, 0, 2, 0, 1, 0, 0x64] ++ FolderRecord.format.encode foldersRecord,
      [0, 6, 0, 0, 0, 16, 0, 0, 0, 3, 0, 0, 0, 0, 0, 2, 0, 0],
      [0, 8, 0, 0, 0, 16, 0, 1, 0, 0x66, 0, 9]]
    free := VolumeContents.zeros 342 }
  rows := [
    ⟨.firstChild 2, .folderThread ⟨3, 0, 1, [], length_nil_lt⟩⟩,
    ⟨⟨2, [0x64]⟩, .folder foldersRecord⟩,
    ⟨.firstChild 16, .folderThread ⟨3, 0, 2, [], length_nil_lt⟩⟩,
    ⟨⟨16, [0x66]⟩, .unknown 9⟩]
  behind := []
  kind_leaf := rfl
  forwardLink_leaf := rfl
  length_leaf := by decide +kernel
  reads := by decide +kernel
  ascending := by decide
  rows_ne_nil := by decide

def foldersVolume : Volume := foldersContents.volume

theorem folders_lookupPath :
    (foldersVolume.lookupPath "//d//f/").result =
      .ok { id := 0, parentId := 16, name := [0x66], kind := .unknown } := by
  have h := foldersContents.hasRows
  have hd : IsComponent "d" := ⟨by decide, by decide⟩
  have hf : IsComponent "f" := ⟨by decide, by decide⟩
  let folder : Entry := .ofFolder 2 [0x64] foldersRecord
  have hfolder : ((⟨.root, 1⟩ : Cursor).next foldersVolume).1.result = .ok folder :=
    (h.shown_iff ⟨foldersContents.rows[0], by decide, rfl⟩).mpr rfl
  have hfile : ((⟨folder, 1⟩ : Cursor).next foldersVolume).1.result =
      .ok { id := 0, parentId := 16, name := [0x66], kind := .unknown } :=
    (h.shown_iff ⟨foldersContents.rows[2], by decide, rfl⟩).mpr rfl
  have hroute : Route foldersVolume .root ["d", "f"]
      { id := 0, parentId := 16, name := [0x66], kind := .unknown } :=
    .step rfl hfolder (by decide) hd (.step rfl hfile (by decide) hf .here)
  obtain ⟨-, hspelled⟩ := lookupPath_of_route h (by decide) hroute
  exact hspelled "//d//f/"
    (.slash (.slash .empty .empty)
      (.slash (.name hd) (.slash .empty (.slash (.name hf) .empty))))

end HfsPlus.Volume
