import HfsPlus.Proofs.CommandLine.Copy
import HfsPlus.Proofs.Text.LineFeeds

/-!
# The lines of a listing

A listing writes a line for each entry that is shown, and the line ends with the
name as it is on the volume. A name may hold any unit, a line feed too, and then
there are more lines than entries: taken apart again, the listing gives its
entries back if and only if no name among them holds a line feed
(`listsEach_iff`). Nothing else in a line can be one: the letter, the two numbers
and the blanks between them are all that stands in front of the name
(`count_listingLine`).
-/

namespace HfsPlus

/-! ## A line -/

namespace Report

theorem count_repr (n : Nat) : n.repr.toList.count '\n' = 0 := by
  rw [Nat.toList_repr, List.count_eq_zero]
  intro h
  exact absurd (Nat.isDigit_of_mem_toDigits (by decide) (by decide) h) (by decide)

theorem count_alignRight (width : Nat) (s : String) :
    (Text.alignRight width s).toList.count '\n' = s.toList.count '\n' := by
  rw [Text.alignRight, String.toList_append, String.toList_ofList, List.count_append,
    List.count_replicate, if_neg (by decide), Nat.zero_add]

theorem kindLetter_ne (entry : Entry) : kindLetter entry ≠ '\n' := by
  rw [kindLetter]
  split <;> decide

/-- A line holds the line feeds of the name. -/
theorem count_listingLine (entry : Entry) :
    (Text.utf8 (listingLine entry)).count lineFeed = entry.name.count 0x000A := by
  have hletter : (toString (kindLetter entry)).toList.count '\n' = 0 := by
    have hchars : (toString (kindLetter entry)).toList = [kindLetter entry] :=
      String.toList_singleton _
    rw [hchars, List.count_cons_of_ne (kindLetter_ne entry), List.count_nil]
  have hblank : (toString " ").toList.count '\n' = 0 := by decide
  have hsize : (toString (Text.alignRight 12
      (toString entry.attributes.usedBytes))).toList.count '\n' = 0 :=
    (count_alignRight 12 _).trans (count_repr _)
  have hmodified : (toString (Text.alignRight 10
      (toString entry.attributes.modifyTime))).toList.count '\n' = 0 :=
    (count_alignRight 10 _).trans (count_repr _)
  have hname : (toString entry.displayName).toList.count '\n' = entry.name.count 0x000A := by
    have hchars : (toString entry.displayName).toList = Text.Utf16.decodeChars entry.name :=
      String.toList_ofList
    rw [hchars, Text.Utf16.count_decodeChars]
  rw [Text.count_utf8, listingLine]
  simp only [String.toList_append, List.count_append]
  omega

end Report

/-! ## Lines of entries -/

/-- The entries that a listing has lines of. -/
def listedOf (entries : List Entry) : List Entry := entries.filter (·.kind ≠ .unknown)

/-- Taken apart at its line feeds, the output is a line for each of these entries, in
their order, and nothing behind the last. -/
def ListsEach (output : Bytes) (listed : List Entry) : Prop :=
  output.splitOn lineFeed = (listed.map fun e => Text.utf8 (Report.listingLine e)) ++ [[]]

theorem output_printLines (lines : List String) :
    (Run.printLines lines).output = (lines.map Text.utf8).flatMap (· ++ [lineFeed]) := by
  have hend : ∀ line, Text.utf8 (line ++ "\n") = Text.utf8 line ++ [lineFeed] :=
    fun line => Text.utf8_append line "\n"
  have hwritten : (Run.printLines lines).output =
      Text.utf8 (String.join (lines.map (· ++ "\n"))) := List.append_nil _
  rw [hwritten, Text.utf8_join, List.flatMap_map, List.flatMap_map]
  exact congrArg (lines.flatMap ·) (funext hend)

theorem output_listing (entries : List Entry) :
    (Run.printLines (Report.listing entries)).output = (listedOf entries).flatMap fun e =>
      Text.utf8 (Report.listingLine e) ++ [lineFeed] := by
  rw [output_printLines, Report.listing, List.map_map, List.flatMap_map]
  rfl

/-- There are as many lines as entries, and one more for each line feed in a name. -/
theorem count_listing (entries : List Entry) :
    (Run.printLines (Report.listing entries)).output.count lineFeed =
      (listedOf entries).length + ((listedOf entries).flatMap Entry.name).count 0x000A := by
  rw [output_listing]
  induction listedOf entries with
  | nil => rfl
  | cons e rest ih =>
    rw [List.flatMap_cons, List.count_append, List.count_append, Report.count_listingLine, ih,
      List.length_cons, List.flatMap_cons, List.count_append, List.count_singleton_self]
    omega

theorem listsEach_iff (entries : List Entry) :
    ListsEach (Run.printLines (Report.listing entries)).output (listedOf entries) ↔
      ∀ e ∈ listedOf entries, 0x000A ∉ e.name := by
  have hlines : (Run.printLines (Report.listing entries)).output =
      ((listedOf entries).map fun e => Text.utf8 (Report.listingLine e)).flatMap
        (· ++ [lineFeed]) := by
    rw [output_listing, List.flatMap_map]
  rw [ListsEach, hlines, Text.splitOn_lines_iff, List.forall_mem_map]
  refine forall₂_congr fun e _ => ?_
  rw [Report.count_listingLine, List.count_eq_zero]

/-! ## The command -/

namespace Volume

variable {v : Volume} {folder : Entry} {entries : List Entry}

/-- The entries of a folder are shown one after another, up to its end. -/
theorem exists_shows_of_entries (h : (v.entries folder).result = .ok entries) :
    ∃ last, ({ folder } : Cursor).Shows v entries last ∧
      (last.next v).1.result = .error .notFound := by
  obtain ⟨shown, last, e, hshows, he⟩ := Cursor.exists_error v { folder }
  rw [result_entries_of_shows hshows he hshows.length_le] at h
  split at h
  · next hnone =>
    cases h
    exact ⟨last, hshows, hnone ▸ he⟩
  · cases h

end Volume

namespace Command

variable {v : Volume} {path : String}

theorem runOn_ls {folder : Entry} {entries : List Entry}
    (hlookup : (v.lookupPath path).result = .ok folder) (hfolder : folder.isFolder = true)
    (hentries : (v.entries folder).result = .ok entries) :
    ((Command.ls path).runOn v).result = .ok () ∧
      ((Command.ls path).runOn v).output = (Run.printLines (Report.listing entries)).output := by
  rw [runOn, Run.result_bind_of_ok hlookup, Run.output_bind_of_ok hlookup,
    Volume.output_lookupPath, List.nil_append, if_pos hfolder, Run.result_bind_of_ok hentries,
    Run.output_bind_of_ok hentries, Volume.output_entries, List.nil_append]
  exact ⟨rfl, rfl⟩

theorem exists_of_runOn_ls (h : ((Command.ls path).runOn v).result = .ok ()) :
    ∃ folder entries, (v.lookupPath path).result = .ok folder ∧ folder.isFolder = true ∧
      (v.entries folder).result = .ok entries := by
  rw [runOn, Run.result_bind] at h
  obtain ⟨folder, hlookup, h⟩ := exists_of_bind_eq_ok h
  split at h
  · next hfolder =>
    rw [Run.result_bind] at h
    obtain ⟨entries, hentries, -⟩ := exists_of_bind_eq_ok h
    exact ⟨folder, entries, hlookup, hfolder, hentries⟩
  · cases h

end Command

namespace Invocation

variable {invocation : Invocation} {image : Array UInt8} {path : String}

theorem output_outcome (invocation : Invocation) (image : Array UInt8) :
    (invocation.outcome image).output = (invocation.command.run image).output := by
  rw [outcome, Outcome.ofRun]

theorem exitCode_eq_zero_iff : (invocation.outcome image).exitCode = 0 ↔
    (invocation.command.run image).result = .ok () := by
  rw [outcome, Outcome.ofRun]
  cases hresult : (invocation.command.run image).result with
  | error e => exact iff_of_false (by simp) (by simp)
  | ok _ => exact iff_of_true rfl rfl

theorem exists_of_ls (hcommand : invocation.command = .ls path)
    (h : (invocation.outcome image).exitCode = 0) :
    ∃ v folder entries, (Volume.mount (.ofImage image)).result = .ok v ∧
      (v.lookupPath path).result = .ok folder ∧ folder.isFolder = true ∧
      (v.entries folder).result = .ok entries ∧
      (invocation.outcome image).output = (Run.printLines (Report.listing entries)).output := by
  have houtput := invocation.output_outcome image
  have hresult := exitCode_eq_zero_iff.mp h
  rw [hcommand] at houtput hresult
  cases hmount : (Volume.mount (.ofImage image)).result with
  | error e =>
    rw [Command.run, Run.result_bind_of_error hmount] at hresult
    cases hresult
  | ok v =>
    obtain ⟨hmounted, hwritten⟩ := Command.run_of_mount hmount (.ls path)
    rw [hmounted] at hresult
    rw [hwritten] at houtput
    obtain ⟨folder, entries, hlookup, hfolder, hentries⟩ := Command.exists_of_runOn_ls hresult
    rw [(Command.runOn_ls hlookup hfolder hentries).2] at houtput
    exact ⟨v, folder, entries, rfl, hlookup, hfolder, hentries, houtput⟩

/-- A listing that ends well has a line for each entry that an enumeration shows up to the
end of the folder, thread records and their like apart, in the order in which they are
shown. It has one line more for each line feed in a name, and so it can be taken apart
into its entries again if and only if there is none. -/
theorem listing_taken_apart_iff (hcommand : invocation.command = .ls path)
    (h : (invocation.outcome image).exitCode = 0) :
    ∃ v folder shown last, (Volume.mount (.ofImage image)).result = .ok v ∧
      (v.lookupPath path).result = .ok folder ∧ folder.isFolder = true ∧
      ({ folder } : Cursor).Shows v shown last ∧
      (last.next v).1.result = .error .notFound ∧
      (v.entries folder).result = .ok shown ∧
      (invocation.outcome image).output = ((listedOf shown).flatMap fun e =>
        Text.utf8 (Report.listingLine e) ++ [lineFeed]) ∧
      (invocation.outcome image).output.count lineFeed =
        (listedOf shown).length + ((listedOf shown).flatMap Entry.name).count 0x000A ∧
      (ListsEach (invocation.outcome image).output (listedOf shown) ↔
        ∀ e ∈ listedOf shown, 0x000A ∉ e.name) := by
  obtain ⟨v, folder, shown, hmount, hlookup, hfolder, hentries, houtput⟩ :=
    exists_of_ls hcommand h
  obtain ⟨last, hshows, hend⟩ := Volume.exists_shows_of_entries hentries
  rw [houtput]
  exact ⟨v, folder, shown, last, hmount, hlookup, hfolder, hshows, hend, hentries,
    output_listing shown, count_listing shown, listsEach_iff shown⟩

end Invocation

/-! ### A sample

The root folder of this image holds a folder, and a file with a line feed in its
name. -/

namespace Volume

def feedFile : FileRecord :=
  { linkRecord with userInfo := ⟨0, 0, 0, ⟨0, 0⟩, 0⟩, dataFork := ⟨0, 0, 0, .empty⟩ }

def feedContents : VolumeContents where
  leaf := {
    forwardLink := 0
    backwardLink := 0
    kind := .leaf
    height := 1
    reserved := 0
    records := [
      -- The thread record of the root folder.
      [0, 6, 0, 0, 0, 2, 0, 0, 0, 3, 0, 0, 0, 0, 0, 1, 0, 0],
      [0, 8, 0, 0, 0, 2, 0, 1, 0, 0x6C] ++ FolderRecord.format.encode foldersRecord,
      [0, 12, 0, 0, 0, 2, 0, 3, 0, 0x6D, 0, 0x0A, 0, 0x6E] ++ FileRecord.format.encode feedFile]
    free := VolumeContents.zeros 112 }
  rows := [
    ⟨.firstChild 2, .folderThread ⟨3, 0, 1, [], length_nil_lt⟩⟩,
    ⟨⟨2, [0x6C]⟩, .folder foldersRecord⟩,
    ⟨⟨2, [0x6D, 0x0A, 0x6E]⟩, .file feedFile⟩]
  behind := VolumeContents.zeros 512
  kind_leaf := rfl
  forwardLink_leaf := rfl
  length_leaf := by decide +kernel
  reads := by decide +kernel
  ascending := by decide
  rows_ne_nil := by decide

def feedImage : Array UInt8 := feedContents.image

def feedVolume : Volume := feedContents.volume

def feedRows : List CatalogRow := feedContents.rows

theorem feedVolume_hasRows : feedVolume.HasRows [feedContents.leaf.node 1] feedRows :=
  feedContents.hasRows

theorem feedVolume_mounted : (mount (.ofImage feedImage)).result = .ok feedVolume :=
  feedContents.result_mount

theorem feed_lookupPath : (feedVolume.lookupPath "/").result = .ok .root :=
  congrArg Run.result (lookupPath_of_nameless feedVolume (.slash .empty .empty))

theorem feed_entries : (feedVolume.entries .root).result = .ok (entriesOf feedRows 2) :=
  feedVolume_hasRows.result_entries ⟨feedRows[0], by decide, rfl⟩

def listFeed : Invocation := ⟨0, "disk.img", .ls "/"⟩

theorem listFeed_outcome : (listFeed.outcome feedImage).exitCode = 0 ∧
    (listFeed.outcome feedImage).output =
      (Run.printLines (Report.listing (entriesOf feedRows 2))).output := by
  obtain ⟨hmounted, hwritten⟩ := Command.run_of_mount feedVolume_mounted listFeed.command
  obtain ⟨hresult, houtput⟩ := Command.runOn_ls feed_lookupPath rfl feed_entries
  refine ⟨Invocation.exitCode_eq_zero_iff.mpr (hmounted.trans hresult), ?_⟩
  rw [Invocation.output_outcome, hwritten]
  exact houtput

/-- The listing of the sample is three lines for two entries. -/
theorem listFeed_not_listsEach :
    (listFeed.outcome feedImage).exitCode = 0 ∧
    (mount (.ofImage feedImage)).result = .ok feedVolume ∧
    (feedVolume.lookupPath "/").result = .ok .root ∧
    (feedVolume.entries .root).result = .ok (entriesOf feedRows 2) ∧
    (listedOf (entriesOf feedRows 2)).length = 2 ∧
    (listFeed.outcome feedImage).output.count lineFeed = 3 ∧
    ¬ ListsEach (listFeed.outcome feedImage).output (listedOf (entriesOf feedRows 2)) := by
  obtain ⟨hexit, houtput⟩ := listFeed_outcome
  have hnames : (listedOf (entriesOf feedRows 2)).map Entry.name =
      [[0x6C], [0x6D, 0x0A, 0x6E]] := by
    decide
  have hlength : (listedOf (entriesOf feedRows 2)).length = 2 := by
    rw [← List.length_map, hnames]
    rfl
  refine ⟨hexit, feedVolume_mounted, feed_lookupPath, feed_entries, hlength, ?_, ?_⟩
  · rw [houtput, count_listing, hlength, List.flatMap_def, hnames]
    rfl
  · rw [houtput, listsEach_iff]
    decide

theorem listFeed_taken_apart :
    ∃ shown last, (⟨.root, 0⟩ : Cursor).Shows feedVolume shown last ∧
      (last.next feedVolume).1.result = .error .notFound ∧
      (ListsEach (listFeed.outcome feedImage).output (listedOf shown) ↔
        ∀ e ∈ listedOf shown, 0x000A ∉ e.name) := by
  obtain ⟨v, folder, shown, last, hmount, hlookup, -, hshows, hend, -, -, -, hiff⟩ :=
    Invocation.listing_taken_apart_iff rfl listFeed_outcome.1
  cases hmount.symm.trans feedVolume_mounted
  cases hlookup.symm.trans feed_lookupPath
  exact ⟨shown, last, hshows, hend, hiff⟩

end Volume

end HfsPlus
