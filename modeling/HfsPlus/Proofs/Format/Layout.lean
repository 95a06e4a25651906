import HfsPlus.Proofs.Format.Structures

/-!
# Where a field lies

A format that is exact for one list of widths takes up the same number of bytes
whatever the value is, and of these formats a structure's is put together. So its
fields have places that can be counted out beforehand: `read_seq_eq_ok` moves over
a field by its width, and `eq_of_read_word` says which number is found there.

The headers of a volume and of a tree are such structures. Every string of
bytes that is long enough can be read as one, and what it has behind that
length makes no difference (`read_take`).
-/

namespace HfsPlus

namespace Format

variable {α β : Type} {f : Format α} {g : Format β} {F : α → List FieldValue} {ws : List Nat}
  {bs : Bytes} {size : Nat}

/-! ## Reading field by field -/

theorem read_eq_ok {a : α} : f.read bs = .ok a ↔ ∃ rest, f.decode bs = .ok (a, rest) := by
  rw [read]
  cases f.decode bs with
  | error field => simp
  | ok v => obtain ⟨a', rest⟩ := v; simp

theorem exists_read_of_le [Exact f F fun _ => ws] (hsize : totalWidth ws = size)
    (h : size ≤ bs.length) : ∃ a, f.read bs = .ok a := by
  subst hsize
  obtain ⟨a, ha⟩ := exists_ok_of_le (f := f) h
  exact ⟨a, read_eq_ok.mpr ⟨_, ha⟩⟩

/-- What comes behind the bytes of a value makes no difference to it. -/
theorem read_take [Exact f F fun _ => ws] (hsize : totalWidth ws = size)
    (h : size ≤ bs.length) : f.read (bs.take size) = f.read bs := by
  subst hsize
  obtain ⟨a, ha⟩ := exists_ok_of_le (f := f) h
  have hbytes : bs.take (totalWidth ws) = FieldValue.bytes (F a) ++ [] := by
    have hsplit : bs = FieldValue.bytes (F a) ++ bs.drop (totalWidth ws) :=
      Exact.decode_eq_ok_iff.mp ha
    rw [List.append_nil]
    exact List.append_cancel_right ((List.take_append_drop _ bs).trans hsplit)
  rw [read_eq_ok.mpr ⟨_, ha⟩, read_eq_ok.mpr ⟨_, Exact.decode_eq_ok_iff.mpr hbytes⟩]

/-- The second of two values lies behind the first, as far as the first is long. -/
theorem read_seq_eq_ok [Exact f F fun _ => ws] {a : α} {b : β} :
    (f.seq g).read bs = .ok (a, b) ↔
      f.read bs = .ok a ∧ g.read (bs.drop (totalWidth ws)) = .ok b := by
  simp only [read_eq_ok]
  constructor
  · rintro ⟨rest, h⟩
    obtain ⟨⟨a', behind⟩, ha, h⟩ := exists_of_bind_eq_ok h
    obtain ⟨⟨b', rest'⟩, hb, h⟩ := exists_of_bind_eq_ok h
    cases h
    obtain ⟨-, rfl⟩ := rest_of_decode ha
    exact ⟨⟨_, ha⟩, _, hb⟩
  · rintro ⟨⟨behind, ha⟩, rest, hb⟩
    obtain ⟨-, rfl⟩ := rest_of_decode ha
    refine ⟨rest, ?_⟩
    simp only [seq, ha, bind, Except.bind, hb]
    rfl

theorem read_iso_eq_ok {make : α → β} {unmake : β → α} {b : β} :
    (f.iso make unmake).read bs = .ok b ↔ ∃ a, f.read bs = .ok a ∧ make a = b := by
  simp only [read_eq_ok, iso]
  cases f.decode bs with
  | error field => simp [bind, Except.bind]
  | ok v =>
    obtain ⟨a, rest⟩ := v
    simp [bind, Except.bind, pure, Except.pure]

theorem read_of_decodeMany [Exact f F fun _ => ws] : ∀ {n : Nat} {bs rest : Bytes} {l : List α},
    f.decodeMany n bs = .ok (l, rest) →
      ∀ i, ∀ h : i < l.length, f.read (bs.drop (i * totalWidth ws)) = .ok l[i] := by
  intro n
  induction n with
  | zero =>
    intro bs rest l h i hi
    cases h
    cases hi
  | succ n ih =>
    intro bs rest l h i hi
    obtain ⟨⟨a, behind⟩, ha, h⟩ := exists_of_bind_eq_ok h
    obtain ⟨⟨l', rest'⟩, hl, h⟩ := exists_of_bind_eq_ok h
    cases h
    cases i with
    | zero =>
      rw [Nat.zero_mul, List.drop_zero]
      exact read_eq_ok.mpr ⟨_, ha⟩
    | succ i =>
      obtain ⟨-, rfl⟩ := rest_of_decode ha
      rw [Nat.succ_mul, Nat.add_comm, ← List.drop_drop]
      exact ih hl i (Nat.lt_of_succ_lt_succ hi)

/-- The elements of an array lie one behind the other. -/
theorem read_array_getElem [Exact f F fun _ => ws] {n : Nat} {v : Vector α n}
    (h : (f.array n).read bs = .ok v) {i : Nat} (hi : i < n) :
    f.read (bs.drop (i * totalWidth ws)) = .ok v[i] := by
  obtain ⟨rest, h⟩ := read_eq_ok.mp h
  have hread := read_of_decodeMany (array_eq_ok_iff.mp h) i (v.length_toList.symm ▸ hi)
  rwa [Vector.getElem_toList] at hread

/-- A number is read as its digits, and from nowhere else. -/
theorem eq_of_read_word {width : Nat} {make : Nat → α} [Word f width make] {a : α}
    (h : f.read bs = .ok a) : a = make (BigEndian.toNat (bs.take width)) := by
  obtain ⟨rest, h⟩ := read_eq_ok.mp h
  rw [Word.decode_eq] at h
  split at h
  · cases h
    rfl
  · cases h

end Format

/-! ## Headers -/

open Format

theorem NodeDescriptor.fields_of_read {bs : Bytes} {descriptor : NodeDescriptor}
    (h : NodeDescriptor.format.read bs = .ok descriptor) :
    descriptor.kind = Int8.ofBitVec (BitVec.ofNat 8 (BigEndian.field bs 8 1)) ∧
    descriptor.recordCount = UInt16.ofNat (BigEndian.field bs 10 2) := by
  rw [NodeDescriptor.format, read_iso_eq_ok] at h
  obtain ⟨⟨forwardLink, backwardLink, kind, height, recordCount, reserved⟩, h, rfl⟩ := h
  simp only [read_seq_eq_ok, List.drop_drop] at h
  obtain ⟨-, -, hkind, -, hcount, -⟩ := h
  exact ⟨eq_of_read_word hkind, eq_of_read_word hcount⟩

theorem TreeHeader.fields_of_read {bs : Bytes} {header : TreeHeader}
    (h : TreeHeader.format.read bs = .ok header) :
    header.rootNode = UInt32.ofNat (BigEndian.field bs 2 4) ∧
    header.nodeSize = UInt16.ofNat (BigEndian.field bs 18 2) ∧
    header.totalNodes = UInt32.ofNat (BigEndian.field bs 22 4) := by
  rw [TreeHeader.format, read_iso_eq_ok] at h
  obtain ⟨⟨treeDepth, rootNode, leafRecords, firstLeafNode, lastLeafNode, nodeSize,
    maxKeyLength, totalNodes, rest⟩, h, rfl⟩ := h
  simp only [read_seq_eq_ok, List.drop_drop] at h
  obtain ⟨-, hroot, -, -, -, hsize, -, htotal, -⟩ := h
  exact ⟨eq_of_read_word hroot, eq_of_read_word hsize, eq_of_read_word htotal⟩

theorem ExtentDescriptor.fields_of_read {bs : Bytes} {d : ExtentDescriptor}
    (h : ExtentDescriptor.format.read bs = .ok d) :
    d.startBlock = UInt32.ofNat (BigEndian.field bs 0 4) ∧
    d.blockCount = UInt32.ofNat (BigEndian.field bs 4 4) := by
  rw [ExtentDescriptor.format, read_iso_eq_ok] at h
  obtain ⟨⟨startBlock, blockCount⟩, h, rfl⟩ := h
  obtain ⟨hstart, hcount⟩ := read_seq_eq_ok.mp h
  exact ⟨eq_of_read_word hstart, eq_of_read_word hcount⟩

theorem ForkData.fork_of_read {bs : Bytes} {data : ForkData}
    (h : ForkData.format.read bs = .ok data) :
    data.fork = {
      size := UInt64.ofNat (BigEndian.field bs 0 8)
      extents := .ofFn fun i => {
        startBlock := UInt32.ofNat (BigEndian.field bs (16 + i * 8) 4)
        blockCount := UInt32.ofNat (BigEndian.field bs (20 + i * 8) 4) } } := by
  rw [ForkData.format, read_iso_eq_ok] at h
  obtain ⟨⟨logicalSize, clumpSize, totalBlocks, extents⟩, h, rfl⟩ := h
  simp only [read_seq_eq_ok, List.drop_drop] at h
  obtain ⟨hsize, -, -, hextents⟩ := h
  have hextent : ∀ i, ∀ hi : i < 8, extents[i] = {
      startBlock := UInt32.ofNat (BigEndian.field bs (16 + i * 8) 4)
      blockCount := UInt32.ofNat (BigEndian.field bs (20 + i * 8) 4) } := by
    intro i hi
    have hread : ExtentDescriptor.format.read (bs.drop (16 + i * 8)) = .ok extents[i] := by
      rw [← List.drop_drop]
      exact read_array_getElem hextents hi
    obtain ⟨hstart, hcount⟩ := ExtentDescriptor.fields_of_read hread
    have hplace : 16 + i * 8 + 4 = 20 + i * 8 := by omega
    rw [BigEndian.field_drop] at hstart hcount
    rw [← hplace, ← hcount, ← Nat.add_zero (16 + i * 8), ← hstart]
  rw [fork, eq_of_read_word hsize]
  congr 1
  ext1 i hi
  rw [Vector.getElem_ofFn]
  exact hextent i hi

theorem ForkData.fields_of_read {bs : Bytes} {data : ForkData}
    (h : ForkData.format.read bs = .ok data) :
    data.logicalSize = UInt64.ofNat (BigEndian.field bs 0 8) ∧
    data.extents[0].startBlock = UInt32.ofNat (BigEndian.field bs 16 4) ∧
    data.extents[0].blockCount = UInt32.ofNat (BigEndian.field bs 20 4) := by
  obtain ⟨hsize, hextents⟩ := Fork.mk.inj (fork_of_read h)
  rw [hextents, Vector.getElem_ofFn]
  exact ⟨hsize, rfl, rfl⟩

theorem VolumeHeader.fields_of_read {bs : Bytes} {header : VolumeHeader}
    (h : VolumeHeader.format.read bs = .ok header) :
    header.signature = UInt16.ofNat (BigEndian.field bs 0 2) ∧
    header.blockSize = UInt32.ofNat (BigEndian.field bs 40 4) ∧
    header.catalogFile.logicalSize = UInt64.ofNat (BigEndian.field bs 272 8) ∧
    header.catalogFile.extents[0].startBlock = UInt32.ofNat (BigEndian.field bs 288 4) ∧
    header.catalogFile.extents[0].blockCount = UInt32.ofNat (BigEndian.field bs 292 4) := by
  rw [VolumeHeader.format, read_iso_eq_ok] at h
  obtain ⟨⟨signature, version, attributes, lastMountedVersion, journalInfoBlock,
    createDate, modifyDate, backupDate, checkedDate, fileCount, folderCount,
    blockSize, totalBlocks, freeBlocks, nextAllocation, resourceClumpSize, dataClumpSize,
    nextCatalogId, writeCount, encodingsBitmap, finderInfo,
    allocationFile, extentsFile, catalogFile, rest⟩, h, rfl⟩ := h
  simp only [read_seq_eq_ok, List.drop_drop] at h
  obtain ⟨hsignature, -, -, -, -, -, -, -, -, -, -, hsize, -, -, -, -, -, -, -, -, -, -, -,
    hcatalog, -⟩ := h
  obtain ⟨hlogical, hstart, hcount⟩ := ForkData.fields_of_read hcatalog
  rw [BigEndian.field_drop] at hlogical hstart hcount
  exact ⟨eq_of_read_word hsignature, eq_of_read_word hsize, hlogical, hstart, hcount⟩

end HfsPlus
