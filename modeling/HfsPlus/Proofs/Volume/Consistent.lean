import HfsPlus.Proofs.Fork.Cut
import HfsPlus.Proofs.Volume.Confined
import HfsPlus.Proofs.Volume.Names

/-!
# What an entry is, and what its fields say

An entry carries its kind and, beside it, two codes, a number and a fork, and
not every part of the library goes by the kind: `readLink` goes by the codes.
That they cannot contradict each other is `Entry.Consistent`. It holds of every
entry that a volume gives (`Volume.Gives`), whatever bytes the entry was made of,
because it holds of every record's (`Entry.consistent_ofRecord`).

A link's target is then where the kind says, and reading it fails for reasons of
the volume only, never for what is not supported here. For a symbolic link that
needs one thing more. A target is short, and the blocks of a mounted volume are
not small; so it ends before the ninth block, and before the ninth block no fork
needs the extents overflow file.
-/

namespace HfsPlus

namespace Entry

/-- The fields of the entry agree with its kind. -/
structure Consistent (e : Entry) : Prop where
  link_iff : e.kind = .link ↔ e.linkKind?.isSome
  link_of_inodeNumber : e.inodeNumber ≠ 0 → e.kind = .link
  -- Length and extents, both.
  file_or_link_of_dataFork : e.dataFork ≠ .empty → e.kind = .file ∨ e.kind = .link
  codes_of_folder : e.kind = .folder → e.fileType = 0 ∧ e.fileCreator = 0
  eq_of_unknown : e.kind = .unknown →
    e = { id := 0, parentId := e.parentId, name := e.name, kind := .unknown }

theorem linkKind?_of_zero {e : Entry} (htype : e.fileType = 0) (hcreator : e.fileCreator = 0) :
    e.linkKind? = none := by
  rw [linkKind?, htype, hcreator]
  decide

theorem consistent_root : root.Consistent where
  link_iff := by decide
  link_of_inodeNumber := by decide
  file_or_link_of_dataFork := by decide
  codes_of_folder := by decide
  eq_of_unknown := by decide

theorem consistent_ofFolder (parentId : CatalogId) (name : Name) (r : FolderRecord) :
    (ofFolder parentId name r).Consistent where
  link_iff := by
    rw [linkKind?_of_zero rfl rfl]
    simp [ofFolder]
  link_of_inodeNumber := fun h => absurd rfl h
  file_or_link_of_dataFork := fun h => absurd rfl h
  codes_of_folder := fun _ => ⟨rfl, rfl⟩
  eq_of_unknown := by simp [ofFolder]

theorem kind_ofFile (parentId : CatalogId) (name : Name) (r : FileRecord) :
    (ofFile parentId name r).kind =
      if (ofFile parentId name r).linkKind?.isSome then .link else .file :=
  rfl

theorem consistent_ofFile (parentId : CatalogId) (name : Name) (r : FileRecord) :
    (ofFile parentId name r).Consistent := by
  have hkind := kind_ofFile parentId name r
  have hinode : (ofFile parentId name r).inodeNumber =
    if (ofFile parentId name r).linkKind?.isSome then r.permissions.special else 0 := rfl
  generalize ofFile parentId name r = e at hkind hinode
  cases hlink : e.linkKind?.isSome with
  | true =>
    rw [hlink, if_pos rfl] at hkind
    exact ⟨iff_of_true hkind hlink, fun _ => hkind, fun _ => .inr hkind,
      fun h => by simp [hkind] at h, fun h => by simp [hkind] at h⟩
  | false =>
    rw [hlink] at hkind hinode
    refine ⟨iff_of_false ?_ (by simp [hlink]), fun h => absurd hinode h,
      fun _ => .inl hkind, ?_, ?_⟩ <;> simp [hkind]

theorem consistent_unknown (parentId : CatalogId) (name : Name) :
    Consistent { id := 0, parentId, name, kind := .unknown } where
  link_iff := by
    rw [linkKind?_of_zero rfl rfl]
    simp
  link_of_inodeNumber := fun h => absurd rfl h
  file_or_link_of_dataFork := fun h => absurd rfl h
  codes_of_folder := fun _ => ⟨rfl, rfl⟩
  eq_of_unknown := fun _ => rfl

/-- Whatever is in a record, the entry made of it is consistent. -/
theorem consistent_ofRecord (parentId : CatalogId) (name : Name) (record : CatalogRecord) :
    (ofRecord parentId name record).Consistent := by
  cases record with
  | folder r => exact consistent_ofFolder parentId name r
  | file r => exact consistent_ofFile parentId name r
  | folderThread _ => exact consistent_unknown parentId name
  | fileThread _ => exact consistent_unknown parentId name
  | unknown _ => exact consistent_unknown parentId name

end Entry

/-! ## Short forks -/

namespace Fork

variable {dev : Device} {fork : Fork} {reason : Unsupported}

theorem density_le_of_readBlock {block : Nat}
    (h : (fork.readBlock dev block).result = .error (.unsupported reason)) :
    extentDensity ≤ block := by
  rw [result_readBlock, locate] at h
  split at h
  · cases h
  · next hblock =>
    rcases error_or_exists_of_bind_eq_error h with hresolve | ⟨found, -, hdevice⟩
    · have hlate := ExtentRecord.density_le_of_resolve (map_eq_error_iff.mp hresolve)
      rwa [UInt32.toNat_ofNat_of_lt' (Nat.not_le.mp hblock)] at hlate
    · rcases Device.error_of_block hdevice with ⟨fault, hfault⟩ | ⟨available, hshort⟩
      · cases hfault
      · cases hshort

/-- Eight blocks of 512 bytes have 4096. -/
theorem result_readAt_ne_unsupported (hsize : 512 ≤ dev.blockSize.toNat) {len : Nat}
    (hlen : len ≤ 4096) : (fork.readAt dev 0 len).result ≠ .error (.unsupported reason) := by
  intro h
  simp only [readAt] at h
  split at h
  · cases h
  rw [dif_pos (by omega)] at h
  obtain ⟨block, hmem, hblock⟩ := exists_block_of_readBlocks h
  have hlate : 8 ≤ block := density_le_of_readBlock hblock
  have hstart := mem_blocksOf hmem
  have hpast := Nat.mul_le_mul hlate hsize
  omega

end Fork

namespace Volume

variable {dev : Device} {v : Volume} {e folder : Entry}

/-! ## The entries of a volume -/

/-- An entry that a client can come by: the root, or what some operation answered
with. The folder that it was asked about may be any. -/
inductive Gives (v : Volume) : Entry → Prop where
  | root : Gives v .root
  | lookup {folder e : Entry} {name : Name} (h : (v.lookup folder name).result = .ok e) :
      Gives v e
  | next {c : Cursor} {e : Entry} (h : (c.next v).1.result = .ok e) : Gives v e
  | lookupPath {path : String} {e : Entry} (h : (v.lookupPath path).result = .ok e) : Gives v e

theorem consistent_of_lookup {name : Name} (h : (v.lookup folder name).result = .ok e) :
    e.Consistent := by
  obtain ⟨-, hit, row, -, -, rfl⟩ := exists_of_lookup h
  exact Entry.consistent_ofRecord _ _ _

theorem consistent_of_next {c : Cursor} (h : (c.next v).1.result = .ok e) : e.Consistent := by
  rw [Cursor.fst_next] at h
  obtain ⟨hit, row, -, -, rfl⟩ := exists_of_entryAt h
  exact Entry.consistent_ofRecord _ _ _

theorem consistent_of_walk {names : List Name} : ∀ {start : Entry}, start.Consistent →
    (v.walk start names).result = .ok e → e.Consistent := by
  induction names with
  | nil =>
    intro start hstart h
    cases h
    exact hstart
  | cons name rest ih =>
    intro start hstart h
    rw [walk, List.foldlM_cons, Run.result_bind] at h
    obtain ⟨entry, hentry, h⟩ := exists_of_bind_eq_ok h
    refine ih ?_ h
    rw [enter] at hentry
    split at hentry
    · exact consistent_of_lookup hentry
    · cases hentry

theorem Gives.consistent (h : v.Gives e) : e.Consistent := by
  cases h with
  | root => exact Entry.consistent_root
  | lookup h => exact consistent_of_lookup h
  | next h => exact consistent_of_next h
  | lookupPath h => exact consistent_of_walk Entry.consistent_root h

/-! ## Targets of links -/

theorem readLink_of_hard (v : Volume) (h : e.linkKind? = some .hard) :
    v.readLink e = pure (hardLinkTarget e.inodeNumber) := by
  rw [readLink, h]

theorem readLink_of_long (v : Volume) (h : e.linkKind? = some .symbolic)
    (hlong : 4096 < e.size.toNat) :
    v.readLink e = Run.fail (.corrupted (.forkTooLong e.size.toNat 4096)) := by
  rw [readLink, h]
  exact if_pos hlong

theorem readLink_of_short (v : Volume) (h : e.linkKind? = some .symbolic)
    (hshort : e.size.toNat ≤ 4096) :
    v.readLink e = e.dataFork.readAt v.device 0 e.size.toNat := by
  have hfits : ¬ Fork.maxBuffer < e.size.toNat := by
    have hbuffer : 4096 ≤ Fork.maxBuffer := by decide
    omega
  rw [readLink, h]
  exact (if_neg (Nat.not_lt.mpr hshort)).trans (if_neg hfits)

theorem readLink_unsupported_iff (hsize : 512 ≤ v.device.blockSize.toNat) (h : e.Consistent) :
    (∃ reason, (v.readLink e).result = .error (.unsupported reason)) ↔ e.kind ≠ .link := by
  rw [ne_eq, h.link_iff]
  cases hlink : e.linkKind? with
  | none =>
    rw [readLink, hlink]
    exact iff_of_true ⟨_, rfl⟩ (by simp)
  | some kind =>
    refine iff_of_false ?_ (by simp)
    rintro ⟨reason, hreason⟩
    cases kind with
    | hard =>
      rw [readLink_of_hard v hlink] at hreason
      cases hreason
    | symbolic =>
      rcases Nat.lt_or_ge 4096 e.size.toNat with hlong | hshort
      · rw [readLink_of_long v hlink hlong] at hreason
        cases hreason
      · rw [readLink_of_short v hlink hshort] at hreason
        exact Fork.result_readAt_ne_unsupported hsize hshort hreason

/-- Whatever lies on the device, an entry that a mounted volume gives is consistent.
Its target is not supported if and only if the entry is no link. A hard link's is
made without the device; a symbolic link's is its contents if these are at most 4096
bytes, and damage, found without the device, if they are more. -/
theorem given_consistent (hmount : (mount dev).result = .ok v) (h : v.Gives e) :
    e.Consistent ∧
    ((∃ reason, (v.readLink e).result = .error (.unsupported reason)) ↔ e.kind ≠ .link) ∧
    (e.linkKind? = some .hard →
      (v.readLink e).result = .ok (hardLinkTarget e.inodeNumber) ∧
      (v.readLink e).requests = []) ∧
    (e.linkKind? = some .symbolic →
      (4096 < e.size.toNat →
        (v.readLink e).result = .error (.corrupted (.forkTooLong e.size.toNat 4096)) ∧
        (v.readLink e).requests = []) ∧
      (e.size.toNat ≤ 4096 → v.readLink e = v.read e 0 e.size.toNat)) := by
  have hconsistent := h.consistent
  refine ⟨hconsistent, readLink_unsupported_iff (le_blockSize_of_mount hmount) hconsistent,
    fun hhard => ?_, fun hsymbolic => ⟨fun hlong => ?_, fun hshort => ?_⟩⟩
  · rw [readLink_of_hard v hhard]
    exact ⟨rfl, rfl⟩
  · rw [readLink_of_long v hsymbolic hlong]
    exact ⟨rfl, rfl⟩
  · have hkind : e.kind = .link := hconsistent.link_iff.mpr (by simp [hsymbolic])
    have hfolder : ¬ e.isFolder = true := by simp [Entry.isFolder, hkind]
    rw [readLink_of_short v hsymbolic hshort, read, if_neg hfolder]

/-! ### A sample

The only file of the root folder is a symbolic link that is too long. -/

def linkRecord : FileRecord where
  recordType := 2
  flags := 0
  reserved1 := 0
  fileId := 16
  createDate := 0
  contentModDate := 0
  attributeModDate := 0
  accessDate := 0
  backupDate := 0
  permissions := ⟨0, 0, 0, 0, 0, 7⟩
  userInfo := ⟨LinkKind.symbolic.fileType, LinkKind.symbolic.fileCreator, 0, ⟨0, 0⟩, 0⟩
  finderInfo := ⟨.replicate 4 0, 0, 0, 0⟩
  textEncoding := 0
  reserved2 := 0
  dataFork := ⟨65537, 0, 128, .replicate 8 ⟨0, 16⟩⟩
  resourceFork := ⟨0, 0, 0, .empty⟩

/-- A leaf with nothing but this file, of the root folder. -/
def fileLeaf (record : FileRecord) : NodeContents where
  forwardLink := 0
  backwardLink := 0
  kind := .leaf
  height := 1
  reserved := 0
  records := [[0, 8, 0, 0, 0, 2, 0, 1, 0, 0x6C] ++ FileRecord.format.encode record]
  free := VolumeContents.zeros 236

def linkContents : VolumeContents where
  leaf := fileLeaf linkRecord
  rows := [⟨⟨2, [0x6C]⟩, .file linkRecord⟩]
  behind := VolumeContents.zeros 5632
  kind_leaf := rfl
  forwardLink_leaf := rfl
  length_leaf := by decide +kernel
  reads := by decide +kernel
  ascending := by decide
  rows_ne_nil := by decide

def linkVolume : Volume := linkContents.volume

def linkEntry : Entry := .ofFile 2 [0x6C] linkRecord

theorem linkVolume_lookup : (linkVolume.lookup .root [0x6C]).result = .ok linkEntry :=
  linkContents.hasRows.result_lookup (by decide) .root [0x6C]

theorem link_given_consistent :
    linkEntry.Consistent ∧ linkEntry.kind = .link ∧
    (linkVolume.readLink linkEntry).result = .error (.corrupted (.forkTooLong 65537 4096)) ∧
    (linkVolume.readLink linkEntry).requests = [] ∧
    ∃ reason, (linkVolume.readLink .root).result = .error (.unsupported reason) := by
  obtain ⟨hconsistent, -, -, hsymbolic⟩ :=
    given_consistent linkContents.result_mount (.lookup linkVolume_lookup)
  obtain ⟨hlong, -⟩ := hsymbolic (by decide)
  obtain ⟨hresult, hrequests⟩ := hlong (by decide)
  obtain ⟨-, hroot, -⟩ := given_consistent linkContents.result_mount .root
  exact ⟨hconsistent, hconsistent.link_iff.mpr (by decide), hresult, hrequests,
    hroot.mpr (by decide)⟩

end Volume

end HfsPlus
