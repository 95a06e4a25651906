import HfsPlus.Proofs.CommandLine.Listing

/-!
# Copying a folder

A folder has no contents, and reading them is not supported, at any place and of
any length, not even of none (`Volume.read_of_folder`). But whoever goes through
contents asks for them a chunk at a time and only while some are left, and that
is told by the length alone. So it is the length that says whether a folder is
refused (`Volume.passes_of_folder`), and every folder that a volume gives has the
length zero: a folder record has no fork, and neither has the root.

Nothing is left to ask for from the start then, and the copy of a folder is one of
an empty file.
-/

namespace HfsPlus

variable {v : Volume} {entry : Entry}

theorem Entry.kind_eq_of_isFolder (h : entry.isFolder = true) : entry.kind = .folder :=
  eq_of_beq h

theorem Entry.Consistent.size_eq_zero (h : entry.Consistent) (hfolder : entry.isFolder = true) :
    entry.size = 0 := by
  have hkind := Entry.kind_eq_of_isFolder hfolder
  have hempty : entry.dataFork = .empty := by
    refine Classical.byContradiction fun hfork => ?_
    rcases h.file_or_link_of_dataFork hfork with hfile | hlink
    · cases hkind.symm.trans hfile
    · cases hkind.symm.trans hlink
  rw [Entry.size, hempty]
  rfl

namespace Volume

theorem read_of_folder (v : Volume) (h : entry.isFolder = true) (pos len : Nat) :
    v.read entry pos len = Run.fail (.unsupported .folderData) :=
  if_pos h

/-- A folder is refused where there would be something to go through. -/
theorem passes_of_folder (v : Volume) (h : entry.isFolder = true) :
    v.Passes entry [] (if entry.size = 0 then .ok () else .error (.unsupported .folderData)) := by
  intro σ step state
  by_cases hsize : entry.size = 0
  · rw [if_pos hsize, foldContents_of_le (by rw [hsize]; decide)]
    exact .refl _
  · have hlt : 0 < entry.size.toNat :=
      Nat.pos_of_ne_zero fun hzero => hsize (UInt64.toNat_inj.mp hzero)
    have hread := congrArg Run.result
      (v.read_of_folder h 0 (min (entry.size.toNat - 0) chunkSize))
    rw [if_neg hsize]
    exact (foldContents_of_error hlt hread state).trans ⟨rfl, rfl⟩

section Mounted

variable {image : Array UInt8} {path : String}

theorem passes_of_lookupPath (hlookup : (v.lookupPath path).result = .ok entry)
    (hfolder : entry.isFolder = true) : v.Passes entry [] (.ok ()) := by
  have hpasses := v.passes_of_folder hfolder
  rwa [if_pos ((Gives.lookupPath hlookup).consistent.size_eq_zero hfolder)] at hpasses

/-- On every image that is mounted, the root is copied as an empty file. -/
theorem root_copies (hmount : (mount (.ofImage image)).result = .ok v) :
    Invocation.Copies image "/" (.ok ()) [] := by
  have hlookup : (v.lookupPath "/").result = .ok .root :=
    congrArg Run.result (lookupPath_of_nameless v (.slash .empty .empty))
  exact (passes_of_lookupPath hlookup rfl).copies hmount hlookup

/-- Reading a folder is never supported. But its length is zero, whatever record it was
made of, so going through its contents does not come to reading any: the copy writes
nothing and ends well, the digest is that of no bytes, and neither ends in an error. -/
theorem folder_copied_as_empty (hmount : (mount (.ofImage image)).result = .ok v)
    (hlookup : (v.lookupPath path).result = .ok entry) (hfolder : entry.isFolder = true) :
    (∀ pos len, v.read entry pos len = Run.fail (.unsupported .folderData)) ∧
    entry.size = 0 ∧
    v.Passes entry [] (.ok ()) ∧
    Invocation.Copies image path (.ok ()) [] ∧
    ∀ invocation : Invocation,
      invocation.command = .cat path ∨ invocation.command = .sha256 path →
      ∀ e, ¬ (invocation.outcome image).Reports (.error e) := by
  have hpasses := passes_of_lookupPath hlookup hfolder
  have hcopies : Invocation.Copies image path (.ok ()) [] := hpasses.copies hmount hlookup
  refine ⟨v.read_of_folder hfolder, (Gives.lookupPath hlookup).consistent.size_eq_zero hfolder,
    hpasses, hcopies, fun invocation hcommand e hreports => ?_⟩
  have hwell : (invocation.outcome image).Reports (.ok ()) := by
    rcases hcommand with hcat | hsha256
    · exact (hcopies.cat invocation hcat).1
    · exact (hcopies.sha256 invocation hsha256).1
  cases hwell.1.symm.trans hreports.1

end Mounted

/-! ### A sample

The folder on `feedImage`, and its root. -/

def feedFolder : Entry := .ofFolder 2 [0x6C] foldersRecord

theorem feedFolder_lookupPath : (feedVolume.lookupPath "/l").result = .ok feedFolder :=
  (feedVolume.result_lookupPath_of_component (.slash .empty (.name isComponent_l))).trans
    (feedVolume_hasRows.result_lookup (by decide) .root [0x6C])

theorem feedFolder_copied :
    ((⟨0, "disk.img", .cat "/l"⟩ : Invocation).outcome feedImage).Reports (.ok ()) ∧
    ((⟨0, "disk.img", .cat "/l"⟩ : Invocation).outcome feedImage).output = [] := by
  obtain ⟨-, -, -, hcopies, -⟩ :=
    folder_copied_as_empty feedVolume_mounted feedFolder_lookupPath rfl
  exact hcopies.cat _ rfl

/-- The root cannot be read, and copying it is not refused. -/
theorem feedRoot_not_refused :
    (mount (.ofImage feedImage)).result = .ok feedVolume ∧
    (feedVolume.lookupPath "/").result = .ok .root ∧
    (∀ pos len, (feedVolume.read .root pos len).result = .error (.unsupported .folderData)) ∧
    ¬ ((⟨0, "disk.img", .cat "/"⟩ : Invocation).outcome feedImage).Reports
      (.error (.unsupported .folderData)) ∧
    ¬ ((⟨0, "disk.img", .sha256 "/"⟩ : Invocation).outcome feedImage).Reports
      (.error (.unsupported .folderData)) := by
  have hcopies := root_copies feedVolume_mounted
  refine ⟨feedVolume_mounted, feed_lookupPath,
    fun pos len => congrArg Run.result (read_of_folder _ rfl pos len),
    fun hreports => ?_, fun hreports => ?_⟩
  · cases (hcopies.cat _ rfl).1.1.symm.trans hreports.1
  · cases (hcopies.sha256 _ rfl).1.1.symm.trans hreports.1

end Volume

end HfsPlus
