import HfsPlus.Entry
import HfsPlus.Proofs.Format.Layout

/-!
# What the bytes of a record say

A record of the catalog is decoded in layers: by its type into one of three
structures, these into some sixty fields, and an entry takes ten of them. What
comes of it can be said without the layers. `CatalogRecord.neededSize` is how many
bytes a record has to have, and `Entry.stored` is the entry, each number taken from
its own place in the record. `parse_exact` is that the two ways agree on all bytes.

No place is looked at behind the size that is needed, so a record may be followed by
anything.
-/

namespace HfsPlus

/-- The 32-bit number that stands at a place. -/
def BigEndian.uint32At (data : Bytes) (offset : Nat) : UInt32 := .ofNat (field data offset 4)

/-! ## The two descriptions -/

/-- How many bytes a record has to have, by its first two bytes. -/
def CatalogRecord.neededSize (data : Bytes) : Nat :=
  match BigEndian.field data 0 2 with
  | 1 => 88
  | 2 => 248
  | 3 | 4 => 10 + 2 * BigEndian.field data 8 2
  | _ => 2

/-- The pairs of type and creator code that mark a link. -/
def LinkKind.codes : List (FourCharCode × FourCharCode) := [
  -- hlnk, hfs+
  (0x686C6E6B, 0x6866732B),
  -- slnk, rhap
  (0x736C6E6B, 0x72686170)]

/-- The entry that the bytes of a record stand for. -/
def Entry.stored (parentId : CatalogId) (name : Name) (data : Bytes) : Entry :=
  match BigEndian.field data 0 2 with
  | 1 => {
    id := BigEndian.uint32At data 8
    parentId
    name
    kind := .folder
    createTime := BigEndian.uint32At data 12
    modifyTime := BigEndian.uint32At data 16
    accessTime := BigEndian.uint32At data 24 }
  | 2 =>
    let isLink := (BigEndian.uint32At data 48, BigEndian.uint32At data 52) ∈ LinkKind.codes
    { id := BigEndian.uint32At data 8
      parentId
      name
      kind := if isLink then .link else .file
      dataFork := {
        size := .ofNat (BigEndian.field data 88 8)
        extents := .ofFn fun i =>
          ⟨BigEndian.uint32At data (104 + 8 * i), BigEndian.uint32At data (108 + 8 * i)⟩ }
      createTime := BigEndian.uint32At data 12
      modifyTime := BigEndian.uint32At data 16
      accessTime := BigEndian.uint32At data 24
      fileType := BigEndian.uint32At data 48
      fileCreator := BigEndian.uint32At data 52
      inodeNumber := if isLink then BigEndian.uint32At data 44 else 0 }
  | _ => { id := 0, parentId, name, kind := .unknown }

/-! ## Places in a record -/

open Format

theorem BigEndian.field_append {data : Bytes} {offset width : Nat}
    (h : offset + width ≤ data.length) (more : Bytes) :
    field (data ++ more) offset width = field data offset width := by
  have hfront : (data ++ more).take data.length = data := List.take_left' rfl
  rw [← field_take (data ++ more) h, hfront]

theorem FolderRecord.fields_of_read {data : Bytes} {r : FolderRecord}
    (h : FolderRecord.format.read data = .ok r) :
    r.folderId = BigEndian.uint32At data 8 ∧
    r.createDate = BigEndian.uint32At data 12 ∧
    r.contentModDate = BigEndian.uint32At data 16 ∧
    r.accessDate = BigEndian.uint32At data 24 := by
  rw [FolderRecord.format, read_iso_eq_ok] at h
  obtain ⟨⟨recordType, flags, valence, folderId, createDate, contentModDate, attributeModDate,
    accessDate, rest⟩, h, rfl⟩ := h
  simp only [read_seq_eq_ok, List.drop_drop] at h
  obtain ⟨-, -, -, hid, hcreate, hmodify, -, haccess, -⟩ := h
  exact ⟨eq_of_read_word hid, eq_of_read_word hcreate, eq_of_read_word hmodify,
    eq_of_read_word haccess⟩

theorem Permissions.special_of_read {bs : Bytes} {p : Permissions}
    (h : Permissions.format.read bs = .ok p) : p.special = BigEndian.uint32At bs 12 := by
  rw [Permissions.format, read_iso_eq_ok] at h
  obtain ⟨⟨ownerId, groupId, adminFlags, ownerFlags, fileMode, special⟩, h, rfl⟩ := h
  simp only [read_seq_eq_ok, List.drop_drop] at h
  obtain ⟨-, -, -, -, -, hspecial⟩ := h
  exact eq_of_read_word hspecial

theorem FileInfo.codes_of_read {bs : Bytes} {info : FileInfo}
    (h : FileInfo.format.read bs = .ok info) :
    info.fileType = BigEndian.uint32At bs 0 ∧ info.fileCreator = BigEndian.uint32At bs 4 := by
  rw [FileInfo.format, read_iso_eq_ok] at h
  obtain ⟨⟨fileType, fileCreator, rest⟩, h, rfl⟩ := h
  simp only [read_seq_eq_ok, List.drop_drop] at h
  obtain ⟨htype, hcreator, -⟩ := h
  exact ⟨eq_of_read_word htype, eq_of_read_word hcreator⟩

theorem FileRecord.fields_of_read {data : Bytes} {r : FileRecord}
    (h : FileRecord.format.read data = .ok r) :
    (r.fileId = BigEndian.uint32At data 8 ∧
    r.createDate = BigEndian.uint32At data 12 ∧
    r.contentModDate = BigEndian.uint32At data 16 ∧
    r.accessDate = BigEndian.uint32At data 24) ∧
    r.permissions.special = BigEndian.uint32At data 44 ∧
    (r.userInfo.fileType = BigEndian.uint32At data 48 ∧
    r.userInfo.fileCreator = BigEndian.uint32At data 52) ∧
    ForkData.format.read (data.drop 88) = .ok r.dataFork := by
  rw [FileRecord.format, read_iso_eq_ok] at h
  obtain ⟨⟨recordType, flags, reserved1, fileId, createDate, contentModDate, attributeModDate,
    accessDate, backupDate, permissions, userInfo, finderInfo, textEncoding, reserved2,
    dataFork, resourceFork⟩, h, rfl⟩ := h
  simp only [read_seq_eq_ok, List.drop_drop] at h
  obtain ⟨-, -, -, hid, hcreate, hmodify, -, haccess, -, hpermissions, hinfo, -, -, -, hdata,
    -⟩ := h
  have hspecial := Permissions.special_of_read hpermissions
  obtain ⟨htype, hcreator⟩ := FileInfo.codes_of_read hinfo
  rw [BigEndian.uint32At, BigEndian.field_drop] at hspecial htype hcreator
  exact ⟨⟨eq_of_read_word hid, eq_of_read_word hcreate, eq_of_read_word hmodify,
    eq_of_read_word haccess⟩, hspecial, ⟨htype, hcreator⟩, hdata⟩

theorem FileRecord.fork_of_read {data : Bytes} {r : FileRecord}
    (h : FileRecord.format.read data = .ok r) :
    r.dataFork.fork = {
      size := .ofNat (BigEndian.field data 88 8)
      extents := .ofFn fun i =>
        ⟨BigEndian.uint32At data (104 + 8 * i), BigEndian.uint32At data (108 + 8 * i)⟩ } := by
  obtain ⟨-, -, -, hfork⟩ := fields_of_read h
  rw [ForkData.fork_of_read hfork]
  have hstart : ∀ i, 88 + (16 + i * 8) = 104 + 8 * i := by omega
  have hcount : ∀ i, 88 + (20 + i * 8) = 108 + 8 * i := by omega
  simp only [BigEndian.field_drop, hstart, hcount]
  rfl

theorem LinkKind.isSome_ofCodes?_iff {fileType fileCreator : FourCharCode} :
    (ofCodes? fileType fileCreator).isSome ↔ (fileType, fileCreator) ∈ codes := by
  have hcodes : codes = [hard, symbolic].map fun kind => (kind.fileType, kind.fileCreator) := rfl
  rw [hcodes, ofCodes?, List.find?_isSome]
  simp only [List.mem_map, Prod.mk.injEq, Bool.and_eq_true, decide_eq_true_eq]

namespace Entry

variable {data : Bytes}

theorem ofFolder_eq_stored (parentId : CatalogId) (name : Name) {r : FolderRecord}
    (hcode : BigEndian.field data 0 2 = 1) (h : FolderRecord.format.read data = .ok r) :
    ofFolder parentId name r = stored parentId name data := by
  obtain ⟨hid, hcreate, hmodify, haccess⟩ := FolderRecord.fields_of_read h
  simp only [stored, hcode, ofFolder, hid, hcreate, hmodify, haccess]

theorem ofFile_eq_stored (parentId : CatalogId) (name : Name) {r : FileRecord}
    (hcode : BigEndian.field data 0 2 = 2) (h : FileRecord.format.read data = .ok r) :
    ofFile parentId name r = stored parentId name data := by
  obtain ⟨⟨hid, hcreate, hmodify, haccess⟩, hspecial, ⟨htype, hcreator⟩, -⟩ :=
    FileRecord.fields_of_read h
  simp only [stored, hcode, ofFile, hid, hcreate, hmodify, haccess, hspecial, htype, hcreator,
    FileRecord.fork_of_read h, LinkKind.isSome_ofCodes?_iff]

theorem stored_of_unknown {parentId : CatalogId} {name : Name}
    (h : ∀ t : RecordType, BigEndian.field data 0 2 ≠ t.code.toNat) :
    stored parentId name data = { id := 0, parentId, name, kind := .unknown } := by
  rw [stored]
  split
  · next hcode => exact absurd hcode (h .folder)
  · next hcode => exact absurd hcode (h .file)
  · rfl

end Entry

/-! ## Records of one type -/

section Reads

variable {α β : Type} {f : Format α} {F : α → List FieldValue} {vs : Bytes → List Nat}
  {bs : Bytes}

theorem Format.exists_map_read_iff [Exact f F vs] {make : α → β} :
    (∃ b, make <$> f.read bs = .ok b) ↔ totalWidth (vs bs) ≤ bs.length := by
  rw [← Nat.not_lt, ← exists_error_iff (f := f), read]
  cases f.decode bs with
  | error field => simp [Functor.map, Except.map]
  | ok v => simp [Functor.map, Except.map]

theorem Format.read_append [Exact f F vs] {a : α} (h : f.read bs = .ok a) (more : Bytes) :
    f.read (bs ++ more) = .ok a := by
  obtain ⟨rest, h⟩ := read_eq_ok.mp h
  rw [Exact.decode_eq_ok_iff (f := f)] at h
  refine read_eq_ok.mpr ⟨rest ++ more, (Exact.decode_eq_ok_iff (f := f)).mpr ?_⟩
  rw [h, List.append_assoc]

end Reads

namespace RecordType

variable {t : RecordType} {data : Bytes} {record : CatalogRecord}

/-- Reads a record of this type. -/
def read : RecordType → Bytes → Except Error CatalogRecord
  | .folder, data => .folder <$> FolderRecord.format.read data
  | .file, data => .file <$> FileRecord.format.read data
  | .folderThread, data => .folderThread <$> ThreadRecord.format.read data
  | .fileThread, data => .fileThread <$> ThreadRecord.format.read data

theorem exists_read_iff (h : BigEndian.field data 0 2 = t.code.toNat) :
    (∃ record, t.read data = .ok record) ↔ CatalogRecord.neededSize data ≤ data.length := by
  have hthread : totalWidth (ThreadRecord.widths data) ≤ data.length ↔
      10 + 2 * BigEndian.field data 8 2 ≤ data.length :=
    iff_of_eq (congrArg (· ≤ data.length) (Structure.totalWidth_widths .threadRecord data))
  rw [CatalogRecord.neededSize, h]
  cases t with
  | folder => exact Format.exists_map_read_iff (f := FolderRecord.format)
  | file => exact Format.exists_map_read_iff (f := FileRecord.format)
  | folderThread => exact (Format.exists_map_read_iff (f := ThreadRecord.format)).trans hthread
  | fileThread => exact (Format.exists_map_read_iff (f := ThreadRecord.format)).trans hthread

theorem read_append (h : t.read data = .ok record) (more : Bytes) :
    t.read (data ++ more) = .ok record := by
  cases t
  all_goals
    obtain ⟨r, hr, rfl⟩ := map_eq_ok_iff.mp h
    simp only [read, Format.read_append hr]
    rfl

theorem code_of_read (h : t.read data = .ok record) : record.code = t.code := by
  cases t
  all_goals
    obtain ⟨r, -, rfl⟩ := map_eq_ok_iff.mp h
    rfl

theorem ofRecord_of_read (parentId : CatalogId) (name : Name)
    (hcode : BigEndian.field data 0 2 = t.code.toNat) (h : t.read data = .ok record) :
    Entry.ofRecord parentId name record = Entry.stored parentId name data := by
  cases t with
  | folder =>
    obtain ⟨r, hr, rfl⟩ := map_eq_ok_iff.mp h
    exact Entry.ofFolder_eq_stored parentId name hcode hr
  | file =>
    obtain ⟨r, hr, rfl⟩ := map_eq_ok_iff.mp h
    exact Entry.ofFile_eq_stored parentId name hcode hr
  | folderThread =>
    obtain ⟨r, -, rfl⟩ := map_eq_ok_iff.mp h
    rw [Entry.stored, hcode]
    rfl
  | fileThread =>
    obtain ⟨r, -, rfl⟩ := map_eq_ok_iff.mp h
    rw [Entry.stored, hcode]
    rfl

end RecordType

/-! ## All records -/

namespace CatalogRecord

variable {data : Bytes}

theorem parse_of_short (h : data.length < 2) :
    parse data = .error (.corrupted .missingRecordType) := by
  rw [parse, Word.decode_eq (f := uint16), if_neg (Nat.not_le.mpr h)]
  rfl

theorem parse_of_type (hlong : 2 ≤ data.length) {t : RecordType}
    (h : BigEndian.field data 0 2 = t.code.toNat) : parse data = t.read data := by
  obtain ⟨n, hn, hcount⟩ := exists_decode_uint16 hlong
  obtain rfl : n = t.code := UInt16.toNat_inj.mp (hcount.trans h)
  simp only [parse, hn, RecordType.ofCode?_code]
  cases t <;> exact bind_pure_comp _ _

theorem neededSize_of_unknown
    (h : ∀ t : RecordType, BigEndian.field data 0 2 ≠ t.code.toNat) : neededSize data = 2 := by
  rw [neededSize]
  split
  · next hcode => exact absurd hcode (h .folder)
  · next hcode => exact absurd hcode (h .file)
  · next hcode => exact absurd hcode (h .folderThread)
  · next hcode => exact absurd hcode (h .fileThread)
  · rfl

theorem parse_of_unknown (hlong : 2 ≤ data.length)
    (h : ∀ t : RecordType, BigEndian.field data 0 2 ≠ t.code.toNat) :
    parse data = .ok (.unknown (.ofNat (BigEndian.field data 0 2))) := by
  obtain ⟨n, hn, hcount⟩ := exists_decode_uint16 hlong
  have hnone : RecordType.ofCode? n = none := by
    cases htype : RecordType.ofCode? n with
    | none => rfl
    | some t =>
      rw [← RecordType.code_of_ofCode? htype] at hcount
      exact absurd hcount.symm (h t)
  simp only [parse, hn, hnone, ← hcount, UInt16.ofNat_toNat]
  rfl

/-- A record is accepted if it is as long as its type needs it to be, and on no other account.
It keeps the code of its type, it is the same record whatever follows it, and its entry has
each number from the place that the layout gives it. -/
theorem parse_exact (data : Bytes) :
    ((∃ record, parse data = .ok record) ↔ 2 ≤ data.length ∧ neededSize data ≤ data.length) ∧
    ∀ record, parse data = .ok record →
      record.code.toNat = BigEndian.field data 0 2 ∧
      (∀ more, parse (data ++ more) = .ok record) ∧
      ∀ parentId name,
        Entry.ofRecord parentId name record = Entry.stored parentId name data := by
  rcases Nat.lt_or_ge data.length 2 with hshort | hlong
  · rw [parse_of_short hshort]
    simp only [reduceCtorEq, exists_false, false_iff]
    exact ⟨fun h => by omega, fun record h => by cases h⟩
  have hmore : ∀ more, 2 ≤ (data ++ more).length := fun more =>
    Nat.le_trans hlong (by simp)
  have hcode : ∀ more, BigEndian.field (data ++ more) 0 2 = BigEndian.field data 0 2 :=
    BigEndian.field_append hlong
  by_cases hknown : ∃ t : RecordType, BigEndian.field data 0 2 = t.code.toNat
  · obtain ⟨t, ht⟩ := hknown
    rw [parse_of_type hlong ht, RecordType.exists_read_iff ht]
    refine ⟨(and_iff_right hlong).symm, fun record h => ⟨?_, fun more => ?_, ?_⟩⟩
    · rw [RecordType.code_of_read h, ht]
    · rw [parse_of_type (hmore more) ((hcode more).trans ht)]
      exact RecordType.read_append h more
    · exact fun parentId name => RecordType.ofRecord_of_read parentId name ht h
  · have hunknown : ∀ t : RecordType, BigEndian.field data 0 2 ≠ t.code.toNat :=
      fun t ht => hknown ⟨t, ht⟩
    rw [parse_of_unknown hlong hunknown, neededSize_of_unknown hunknown]
    refine ⟨iff_of_true ⟨_, rfl⟩ ⟨hlong, hlong⟩, fun record h => ?_⟩
    cases h
    refine ⟨?_, fun more => ?_, fun parentId name => (Entry.stored_of_unknown hunknown).symm⟩
    · exact UInt16.toNat_ofNat_of_lt' (BigEndian.toNat_take_lt 2 _)
    · rw [parse_of_unknown (hmore more) (hcode more ▸ hunknown), hcode]

/-! ### A sample

The record of a hard link. But for its type and its two codes, each byte is its own place. -/

def numberedLink : Bytes :=
  [0, 2] ++ (List.range' 2 46).map UInt8.ofNat ++ Text.Ascii.bytes "hlnkhfs+" ++
    (List.range' 56 192).map UInt8.ofNat

def numberedEntry : Entry where
  id := 0x08090A0B
  parentId := 16
  name := [0x6C]
  kind := .link
  dataFork := {
    size := 0x58595A5B5C5D5E5F
    extents := #v[
      ⟨0x68696A6B, 0x6C6D6E6F⟩, ⟨0x70717273, 0x74757677⟩, ⟨0x78797A7B, 0x7C7D7E7F⟩,
      ⟨0x80818283, 0x84858687⟩, ⟨0x88898A8B, 0x8C8D8E8F⟩, ⟨0x90919293, 0x94959697⟩,
      ⟨0x98999A9B, 0x9C9D9E9F⟩, ⟨0xA0A1A2A3, 0xA4A5A6A7⟩] }
  createTime := 0x0C0D0E0F
  modifyTime := 0x10111213
  accessTime := 0x18191A1B
  fileType := 0x686C6E6B
  fileCreator := 0x6866732B
  inodeNumber := 0x2C2D2E2F

theorem numberedLink_parsed :
    (∀ record, parse (numberedLink.take 247) ≠ .ok record) ∧
    ∃ record, parse numberedLink = .ok record ∧ record.code = 2 ∧
      parse (numberedLink ++ [0xFF]) = .ok record ∧
      Entry.ofRecord 16 [0x6C] record = numberedEntry := by
  have hshort : ¬ neededSize (numberedLink.take 247) ≤ (numberedLink.take 247).length := by
    decide +kernel
  have hlong : 2 ≤ numberedLink.length ∧ neededSize numberedLink ≤ numberedLink.length := by
    decide +kernel
  have hstored : Entry.stored 16 [0x6C] numberedLink = numberedEntry := by decide +kernel
  obtain ⟨hfails, -⟩ := parse_exact (numberedLink.take 247)
  obtain ⟨haccepted, hrecord⟩ := parse_exact numberedLink
  obtain ⟨record, hparse⟩ := haccepted.mpr hlong
  obtain ⟨hcode, hmore, hentry⟩ := hrecord record hparse
  refine ⟨fun record h => hshort (hfails.mp ⟨record, h⟩).2, record, hparse, ?_, hmore _, ?_⟩
  · exact UInt16.toNat_inj.mp hcode
  · rw [hentry, hstored]

end CatalogRecord

end HfsPlus
