import HfsPlus.Proofs.Device.Reads
import HfsPlus.Proofs.Volume.Paths

/-!
# A path is walked in parts

A walk knows nothing of the path behind the next slash, and nothing of the part
in front of it but the entry that it has come to. So a path in two parts is a
walk along the first and then, if that comes to an entry, one from there along
the second (`lookupPath_slash`). An entry that is no folder does not stand in the
way of the walk that ends with it, only of one that goes on.

`Walks` is such a second part, name by name, with the blocks that each lookup
asks for. Where it begins the names have to be known, and they are: every path
spells one list of names and no other (`exists_spells`, `Spells.unique`). Slashes
that are added at an end or beside another one leave that list as it is.
-/

namespace HfsPlus.Volume

variable {v : Volume} {path rest : String} {names more : List String}

/-! ## The names of a path -/

theorem Spells.splitOn_eq (h : Spells path names) :
    (path.toList.splitOn '/').filter (· ≠ []) = names.map String.toList := by
  induction h with
  | empty => rfl
  | name component =>
    rw [List.splitOn_eq_singleton component.no_slash,
      List.filter_cons_of_pos (by simpa using component.ne_empty)]
    rfl
  | @slash path rest names more _ _ ih ihrest =>
    have hlist : (path ++ "/" ++ rest).toList = path.toList ++ '/' :: rest.toList := by
      simp
    rw [hlist, List.splitOn_append_cons_self, List.filter_append, ih, ihrest, List.map_append]

theorem Spells.unique (h : Spells path names) (h' : Spells path more) : more = names :=
  (List.map_inj_right fun _ _ => String.toList_inj.mp).mp (h'.splitOn_eq.symm.trans h.splitOn_eq)

theorem exists_spells (path : String) : ∃ names, Spells path names := by
  induction hlength : path.toList.length using Nat.strongRecOn generalizing path with
  | ind length ih =>
    subst hlength
    by_cases hslash : '/' ∈ path.toList
    · -- Any slash will do: the parts on both sides of it are shorter than the path.
      obtain ⟨front, back, hsplit⟩ := List.append_of_mem hslash
      have hpath : path = .ofList front ++ "/" ++ .ofList back := by
        rw [← String.toList_inj]
        simp [hsplit]
      have hlength : path.toList.length = front.length + (back.length + 1) := by
        rw [hsplit, List.length_append, List.length_cons]
      obtain ⟨names, hnames⟩ := ih front.length (by omega) (.ofList front) (by simp)
      obtain ⟨more, hmore⟩ := ih back.length (by omega) (.ofList back) (by simp)
      exact ⟨names ++ more, hpath ▸ .slash hnames hmore⟩
    · by_cases hempty : path.toList = []
      · obtain rfl : path = "" := String.toList_inj.mp hempty
        exact ⟨[], .empty⟩
      · exact ⟨[path], .name ⟨hempty, hslash⟩⟩

/-! ## Slashes that add nothing -/

/-- So many slashes in a row. -/
def slashes (n : Nat) : String := .ofList (List.replicate n '/')

theorem slashes_succ (n : Nat) : slashes (n + 1) = "/" ++ slashes n := by
  rw [← String.toList_inj]
  simp [slashes, List.replicate_succ]

theorem slashes_succ' (n : Nat) : slashes (n + 1) = slashes n ++ "/" := by
  rw [← String.toList_inj]
  simp [slashes, List.replicate_succ']

theorem spells_slashes (n : Nat) : Spells (slashes n) [] := by
  induction n with
  | zero => exact .empty
  | succ n ih =>
    rw [slashes_succ']
    exact String.append_empty (s := slashes n ++ "/") ▸ .slash ih .empty

theorem Spells.behind_slashes (h : Spells path names) (n : Nat) :
    Spells (slashes n ++ path) names := by
  cases n with
  | zero =>
    show Spells ("" ++ path) names
    rw [String.empty_append]
    exact h
  | succ n =>
    rw [slashes_succ']
    exact .slash (spells_slashes n) h

theorem Spells.before_slashes (h : Spells path names) (n : Nat) :
    Spells (path ++ slashes n) names := by
  cases n with
  | zero =>
    show Spells (path ++ "") names
    rw [String.append_empty]
    exact h
  | succ n =>
    rw [slashes_succ, ← String.append_assoc]
    exact List.append_nil names ▸ .slash h (spells_slashes n)

/-- Two paths that spell the same names are one path, for whoever walks it. -/
theorem lookupPath_of_spells (v : Volume) (h : Spells path names) (h' : Spells rest names) :
    v.lookupPath rest = v.lookupPath path := by
  rw [lookupPath, lookupPath, h.pathNames_eq, h'.pathNames_eq]

/-! ## One part after the other -/

theorem lookupPath_slash (v : Volume) (path rest : String) :
    v.lookupPath (path ++ "/" ++ rest) =
      v.lookupPath path >>= fun entry => v.walk entry (pathNames rest) := by
  rw [lookupPath, lookupPath, pathNames_slash, walk, List.foldlM_append]
  rfl

/-- How the walk from an entry along these names ends, and the blocks that it asks
for on the way. -/
inductive Walks (v : Volume) :
    Entry → (names : List String) → (answer : Except Error Entry) → (blocks : List Nat) → Prop where
  | arrived {entry : Entry} : Walks v entry [] (.ok entry) []
  | noFolder {entry : Entry} {name : String} {names : List String}
      (noFolder : entry.isFolder = false) : Walks v entry (name :: names) (.error .notFound) []
  | lost {folder : Entry} {name : String} {names : List String} {e : Error}
      (isFolder : folder.isFolder = true)
      (fails : (v.lookup folder (Text.Utf16.encode name)).result = .error e) :
      Walks v folder (name :: names) (.error e)
        (v.lookup folder (Text.Utf16.encode name)).requests
  | step {folder next : Entry} {name : String} {names : List String}
      {answer : Except Error Entry} {blocks : List Nat} (isFolder : folder.isFolder = true)
      (finds : (v.lookup folder (Text.Utf16.encode name)).result = .ok next)
      (rest : Walks v next names answer blocks) :
      Walks v folder (name :: names) answer
        ((v.lookup folder (Text.Utf16.encode name)).requests ++ blocks)

theorem walks_walk (v : Volume) (names : List String) : ∀ entry : Entry,
    Walks v entry names (v.walk entry (names.map Text.Utf16.encode)).result
      (v.walk entry (names.map Text.Utf16.encode)).requests := by
  induction names with
  | nil =>
    intro entry
    exact .arrived
  | cons name names ih =>
    intro entry
    rw [List.map_cons, walk, List.foldlM_cons, enter]
    cases hfolder : entry.isFolder with
    | false => exact .noFolder hfolder
    | true =>
      rw [if_pos rfl]
      cases hlookup : (v.lookup entry (Text.Utf16.encode name)).result with
      | error e =>
        rw [Run.result_bind_of_error hlookup, Run.requests_bind_of_error hlookup]
        exact .lost hfolder hlookup
      | ok next =>
        rw [Run.result_bind_of_ok hlookup, Run.requests_bind_of_ok hlookup]
        exact .step hfolder hlookup (ih next)

/-- The rules of a walk leave no choice. -/
theorem Walks.unique {entry : Entry} {answer answer' : Except Error Entry}
    {blocks blocks' : List Nat} (h : Walks v entry names answer blocks)
    (h' : Walks v entry names answer' blocks') : answer' = answer ∧ blocks' = blocks := by
  induction h generalizing answer' blocks' with
  | arrived =>
    cases h'
    exact ⟨rfl, rfl⟩
  | noFolder hfile =>
    cases h' with
    | noFolder => exact ⟨rfl, rfl⟩
    | lost hfolder => simp [hfile] at hfolder
    | step hfolder => simp [hfile] at hfolder
  | lost hfolder hfails =>
    cases h' with
    | noFolder hfile => simp [hfolder] at hfile
    | lost _ hfails' =>
      cases hfails.symm.trans hfails'
      exact ⟨rfl, rfl⟩
    | step _ hfinds => cases hfails.symm.trans hfinds
  | step hfolder hfinds _ ih =>
    cases h' with
    | noFolder hfile => simp [hfolder] at hfile
    | lost _ hfails => cases hfinds.symm.trans hfails
    | step _ hfinds' hrest =>
      cases hfinds.symm.trans hfinds'
      obtain ⟨rfl, rfl⟩ := ih hrest
      exact ⟨rfl, rfl⟩

/-- A path with something behind it is walked to its own end first. If that fails, nothing
else is done. If it comes to an entry, there is one walk from there along the names of what
is behind, and it decides the answer; the blocks that are asked for are those of the two
walks, one after the other. So only the names of a path matter, and slashes in front of it,
behind it, or beside another slash make no difference. -/
theorem lookupPath_composes (v : Volume) (path rest : String) :
    (∃ names, ∀ others, Spells rest others ↔ others = names) ∧
    (∀ e, (v.lookupPath path).result = .error e →
      v.lookupPath (path ++ "/" ++ rest) = v.lookupPath path) ∧
    (∀ entry names, (v.lookupPath path).result = .ok entry → Spells rest names →
      ∃ blocks,
        (∀ answer others, Walks v entry names answer others ↔
          answer = (v.lookupPath (path ++ "/" ++ rest)).result ∧ others = blocks) ∧
        (v.lookupPath (path ++ "/" ++ rest)).requests =
          (v.lookupPath path).requests ++ blocks) ∧
    (∀ other names, Spells rest names → Spells other names →
      v.lookupPath other = v.lookupPath rest) ∧
    (∀ m n, v.lookupPath (slashes m ++ rest ++ slashes n) = v.lookupPath rest) ∧
    ∀ n, v.lookupPath (path ++ slashes (n + 1) ++ rest) =
      v.lookupPath (path ++ "/" ++ rest) := by
  obtain ⟨names, hnames⟩ := exists_spells rest
  obtain ⟨front, hfront⟩ := exists_spells path
  refine ⟨⟨names, fun others => ⟨hnames.unique, fun h => h ▸ hnames⟩⟩, fun e he => ?_,
    fun entry spelled hentry hspelled => ?_, fun _ _ => lookupPath_of_spells v,
    fun m n => ?_, fun n => ?_⟩
  · rw [lookupPath_slash, Run.bind_of_error he, ← he]
  · have hwalk := walks_walk v spelled entry
    rw [← hspelled.pathNames_eq] at hwalk
    rw [lookupPath_slash, Run.result_bind_of_ok hentry, Run.requests_bind_of_ok hentry]
    refine ⟨_, fun answer others => ⟨hwalk.unique, ?_⟩, rfl⟩
    rintro ⟨rfl, rfl⟩
    exact hwalk
  · exact lookupPath_of_spells v hnames ((hnames.behind_slashes m).before_slashes n)
  · have hpath : path ++ slashes (n + 1) ++ rest = path ++ "/" ++ (slashes n ++ rest) := by
      simp only [slashes_succ, String.append_assoc]
    rw [hpath]
    exact lookupPath_of_spells v (.slash hfront hnames)
      (.slash hfront (hnames.behind_slashes n))

/-- The entry f of the folder d is no folder. It is found behind the folder, and nothing is
found behind it, after the same blocks have been asked for. -/
theorem folders_composes :
    let folder : Entry := .ofFolder 2 [0x64] foldersRecord
    (foldersVolume.lookupPath "//d").result = .ok folder ∧
    (foldersVolume.lookupPath "//d/f").result =
      .ok { id := 0, parentId := 16, name := [0x66], kind := .unknown } ∧
    (foldersVolume.lookupPath "//d/f//x").result = .error .notFound ∧
    (foldersVolume.lookupPath "//d/f//x").requests =
      (foldersVolume.lookupPath "//d/f").requests := by
  intro folder
  have h := foldersContents.hasRows
  have hd : IsComponent "d" := ⟨by decide, by decide⟩
  have hf : IsComponent "f" := ⟨by decide, by decide⟩
  have hx : IsComponent "x" := ⟨by decide, by decide⟩
  have hshown : ((⟨.root, 1⟩ : Cursor).next foldersVolume).1.result = .ok folder :=
    (h.shown_iff ⟨foldersContents.rows[0], by decide, rfl⟩).mpr rfl
  have hfile : ((⟨folder, 1⟩ : Cursor).next foldersVolume).1.result =
      .ok { id := 0, parentId := 16, name := [0x66], kind := .unknown } :=
    (h.shown_iff ⟨foldersContents.rows[2], by decide, rfl⟩).mpr rfl
  have hfinds := h.result_lookup_of_shown (by decide) hfile
  have hspelled : Spells "//d" ["d"] := .slash .empty (.slash .empty (.name hd))
  have hfolder : (foldersVolume.lookupPath "//d").result = .ok folder := by
    rw [lookupPath, hspelled.pathNames_eq]
    exact h.result_walk_of_route (by decide) (.step rfl hshown (by decide) hd .here)
  obtain ⟨-, -, hbehind, -⟩ := lookupPath_composes foldersVolume "//d" "f"
  obtain ⟨blocks, hwalks, hblocks⟩ := hbehind folder ["f"] hfolder (.name hf)
  obtain ⟨hanswer, hasked⟩ := (hwalks _ _).mp (.step rfl hfinds .arrived)
  obtain ⟨-, -, hbehind', -⟩ := lookupPath_composes foldersVolume "//d" "f//x"
  obtain ⟨blocks', hwalks', hblocks'⟩ := hbehind' folder ["f", "x"] hfolder
    (.slash (.name hf) (.slash .empty (.name hx)))
  obtain ⟨hanswer', hasked'⟩ := (hwalks' _ _).mp (.step rfl hfinds (.noFolder rfl))
  have hsame : blocks' = blocks := hasked'.symm.trans hasked
  exact ⟨hfolder, hanswer.symm, hanswer'.symm,
    hblocks'.trans ((congrArg _ hsame).trans hblocks.symm)⟩

end HfsPlus.Volume
