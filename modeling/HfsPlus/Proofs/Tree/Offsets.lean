import HfsPlus.Proofs.Checked.Node
import HfsPlus.Proofs.Format.Layout
import HfsPlus.Proofs.Tree.Packed

/-!
# Where the records of a node lie

A record runs from its own entry in the table of offsets to the next one. An
entry is looked at only when a record is asked for, and it is held against its
own place in the table, not against the front of the table. So what is known of
a record that can be read is about two entries and no more (`record_eq_ok_iff`),
and what holds of a node as a whole has to come from there.

If all records can be read, each begins where the one in front of it ends, and
the last one ends in front of the table: they are the bytes between the
descriptor and free space, cut into pieces (`records_tile`). If not, a record
may run on into the entries of records behind it, and it is handed out with
these entries in it; but then one of the records behind it cannot be read
(`clearOfTable_iff`).
-/

namespace HfsPlus

/-- Slices between one cut and the next make up the slice between the first cut and
the last. -/
theorem flatten_slices (data : Bytes) (cut : Nat → Nat) : ∀ {n : Nat},
    (∀ i < n, cut i ≤ cut (i + 1)) →
    cut 0 ≤ cut n ∧
    ((List.range n).map fun i => data.extract (cut i) (cut (i + 1))).flatten =
      data.extract (cut 0) (cut n) := by
  intro n
  induction n with
  | zero =>
    intro _
    simp [List.extract_eq_take_drop]
  | succ n ih =>
    intro h
    obtain ⟨hle, hfront⟩ := ih fun i hi => h i (by omega)
    have hstep := h n (by omega)
    have hlength : cut (n + 1) - cut 0 = (cut n - cut 0) + (cut (n + 1) - cut n) := by omega
    have hdrop : data.drop (cut n) = (data.drop (cut 0)).drop (cut n - cut 0) := by
      rw [List.drop_drop]
      congr 1
      omega
    refine ⟨by omega, ?_⟩
    rw [List.range_succ, List.map_append, List.flatten_append, hfront]
    simp only [List.map_cons, List.map_nil, List.flatten_cons, List.flatten_nil, List.append_nil,
      List.extract_eq_take_drop]
    rw [hlength, List.take_add, hdrop]

namespace Node

variable {node : Node} {number : UInt32} {data bytes : Bytes} {index found : Nat}

/-- The number that stands in an entry of the table of offsets, whatever it is. -/
def entry (node : Node) (index : Nat) : Nat :=
  BigEndian.field node.data.toList (node.data.size - 2 * (index + 1)) 2

theorem offset_eq_ok_iff : node.offset index = .ok found ↔
    node.entry index = found ∧ NodeDescriptor.size ≤ found ∧
      found + 2 * (index + 1) ≤ node.data.size := by
  have hentry : BigEndian.toNat (node.data.extract (node.data.size - 2 * (index + 1))
      (node.data.size - 2 * (index + 1) + 2)).toList = node.entry index := by
    rw [entry, BigEndian.field, Array.toList_extract, List.extract_eq_take_drop,
      Nat.add_sub_cancel_left]
  simp only [offset, hentry]
  split
  · next hshort =>
    constructor
    · intro h
      cases h
    · rintro ⟨-, hfrom, hto⟩
      omega
  · next hroom =>
    split
    · next hbounds =>
      rw [Except.ok.injEq]
      constructor
      · rintro rfl
        omega
      · rintro ⟨hfound, -, -⟩
        exact hfound
    · next hbounds =>
      constructor
      · intro h
        cases h
      · rintro ⟨rfl, hfrom, hto⟩
        omega

theorem record_eq_ok_iff : node.record index = .ok bytes ↔
    index < node.recordCount ∧ NodeDescriptor.size ≤ node.entry index ∧
      node.entry index ≤ node.entry (index + 1) ∧
      node.entry (index + 1) + 2 * (index + 2) ≤ node.data.size ∧
      bytes = node.data.toList.extract (node.entry index) (node.entry (index + 1)) := by
  constructor
  · intro h
    rw [record] at h
    split at h
    · cases h
    · next hindex =>
      obtain ⟨start, hstart, h⟩ := exists_of_bind_eq_ok h
      obtain ⟨stop, hstop, h⟩ := exists_of_bind_eq_ok h
      obtain ⟨rfl, hfrom, -⟩ := offset_eq_ok_iff.mp hstart
      obtain ⟨rfl, -, hto⟩ := offset_eq_ok_iff.mp hstop
      split at h
      · cases h
      · next horder =>
        cases h
        exact ⟨Nat.not_le.mp hindex, hfrom, Nat.not_lt.mp horder, hto, Array.toList_extract⟩
  · rintro ⟨hindex, hfrom, horder, hto, rfl⟩
    have hstart : node.offset index = .ok (node.entry index) :=
      offset_eq_ok_iff.mpr ⟨rfl, hfrom, by omega⟩
    have hstop : node.offset (index + 1) = .ok (node.entry (index + 1)) :=
      offset_eq_ok_iff.mpr ⟨rfl, by omega, hto⟩
    rw [record, if_neg (Nat.not_le.mpr hindex), hstart, hstop, ← Array.toList_extract]
    simp only [bind, Except.bind, pure, Except.pure]
    rw [if_neg (Nat.not_lt.mpr horder)]

theorem first_entry_of_parse (h : parse number data = .ok node) :
    node.entry 0 = NodeDescriptor.size ∧ NodeDescriptor.size + 2 ≤ node.data.size := by
  obtain ⟨descriptor, -, h⟩ := exists_of_bind_eq_ok h
  obtain ⟨first, hfirst, h⟩ := exists_of_bind_eq_ok h
  split at h
  · cases h
  · next hplace =>
    cases h
    obtain ⟨hentry, -, hto⟩ := offset_eq_ok_iff.mp hfirst
    rw [Classical.not_not.mp hplace] at hentry hto
    exact ⟨hentry, hto⟩

/-- What cannot be read is damage. -/
theorem damage_of_unreadable (h : ¬ ∃ bytes, node.record index = .ok bytes) :
    ∃ damage, node.record index = .error (.corrupted damage) := by
  cases hrecord : node.record index with
  | ok bytes => exact absurd ⟨bytes, hrecord⟩ h
  | error e =>
    obtain ⟨damage, rfl⟩ := node.onlyDamage_record index e hrecord
    exact ⟨damage, rfl⟩

/-! ## All records of a node -/

/-- The entries are in order, from behind the descriptor to the front of the table. -/
structure Ordered (node : Node) : Prop where
  first_eq : node.entry 0 = NodeDescriptor.size
  ascending : ∀ i < node.recordCount, node.entry i ≤ node.entry (i + 1)
  last_le : node.entry node.recordCount + 2 * (node.recordCount + 1) ≤ node.data.size

theorem entry_le_entry {first last : Nat} (hle : first ≤ last)
    (h : ∀ i, first ≤ i → i < last → node.entry i ≤ node.entry (i + 1)) :
    node.entry first ≤ node.entry last := by
  induction hle with
  | refl => exact Nat.le_refl _
  | @step last hle ih =>
    have hfront := ih fun i hfrom hto => h i hfrom (by omega)
    have hstep := h last hle (Nat.lt_succ_self last)
    exact Nat.le_trans hfront hstep

theorem Ordered.record_eq (h : node.Ordered) (hindex : index < node.recordCount) :
    node.record index =
      .ok (node.data.toList.extract (node.entry index) (node.entry (index + 1))) := by
  have hfront : node.entry 0 ≤ node.entry index :=
    entry_le_entry (Nat.zero_le index) fun i _ hi => h.ascending i (by omega)
  have hbehind : node.entry (index + 1) ≤ node.entry node.recordCount :=
    entry_le_entry hindex fun i _ hi => h.ascending i hi
  have hfirst := h.first_eq
  have hlast := h.last_le
  exact record_eq_ok_iff.mpr ⟨hindex, by omega, h.ascending index hindex, by omega, rfl⟩

/-- Only the last record is held against the front of the table. If all records from
some place on can be read, that bounds each of them. -/
theorem entries_of_readable (hindex : index < node.recordCount)
    (hreadable : ∀ i, index ≤ i → i < node.recordCount → ∃ bytes, node.record i = .ok bytes) :
    node.entry (index + 1) ≤ node.entry node.recordCount ∧
      node.entry node.recordCount + 2 * (node.recordCount + 1) ≤ node.data.size := by
  constructor
  · refine entry_le_entry hindex fun i hfrom hto => ?_
    obtain ⟨bytes, hrecord⟩ := hreadable i (by omega) hto
    obtain ⟨-, -, hle, -⟩ := record_eq_ok_iff.mp hrecord
    exact hle
  · obtain ⟨last, hlast⟩ : ∃ last, node.recordCount = last + 1 :=
      ⟨node.recordCount - 1, by omega⟩
    obtain ⟨bytes, hrecord⟩ := hreadable last (by omega) (by omega)
    obtain ⟨-, -, -, hto, -⟩ := record_eq_ok_iff.mp hrecord
    rw [hlast]
    exact hto

theorem ordered_of_readable (h : parse number data = .ok node)
    (hreadable : ∀ i < node.recordCount, ∃ bytes, node.record i = .ok bytes) : node.Ordered := by
  obtain ⟨hfirst, hroom⟩ := first_entry_of_parse h
  refine ⟨hfirst, ?_, ?_⟩
  · intro i hi
    obtain ⟨bytes, hrecord⟩ := hreadable i hi
    obtain ⟨-, -, hle, -⟩ := record_eq_ok_iff.mp hrecord
    exact hle
  · rcases Nat.eq_zero_or_pos node.recordCount with hnone | hsome
    · rw [hnone, hfirst]
      exact hroom
    · exact (entries_of_readable hsome fun i _ hi => hreadable i hi).2

/-- The records of a node that can all be read are the bytes from the descriptor to
free space, cut at the entries of the table, and the table lies behind them. If the
entries are not in order, or free space begins in the table, then there is a record
that cannot be read. -/
theorem records_tile (h : parse number data = .ok node) :
    ((∀ i < node.recordCount, ∃ bytes, node.record i = .ok bytes) →
      ∃ records : List Bytes, records.length = node.recordCount ∧
        (∀ i, ∀ hi : i < records.length, node.record i = .ok records[i] ∧
          records[i] = data.extract (node.entry i) (node.entry (i + 1))) ∧
        records.flatten = data.extract NodeDescriptor.size (node.entry node.recordCount) ∧
        node.entry node.recordCount + 2 * (node.recordCount + 1) ≤ data.length) ∧
    (¬ node.Ordered →
      ∃ i < node.recordCount, ∃ damage, node.record i = .error (.corrupted damage)) := by
  have hdata : node.data.toList = data := by
    rw [data_of_parse h]
  constructor
  · intro hreadable
    have hordered := ordered_of_readable h hreadable
    have hlast := hordered.last_le
    obtain ⟨-, hflatten⟩ := flatten_slices data node.entry hordered.ascending
    rw [← Array.length_toList, hdata] at hlast
    rw [hordered.first_eq] at hflatten
    refine ⟨_, by simp, ?_, hflatten, hlast⟩
    intro i hi
    rw [List.length_map, List.length_range] at hi
    rw [List.getElem_map, List.getElem_range, hordered.record_eq hi, hdata]
    exact ⟨rfl, rfl⟩
  · intro hdisorder
    by_contra hnone
    refine hdisorder (ordered_of_readable h fun i hi => ?_)
    by_contra hunreadable
    exact hnone ⟨i, hi, damage_of_unreadable hunreadable⟩

/-! ## One record of a node -/

/-- If the record can be read, it is a slice behind the descriptor and in front of the
table of offsets. -/
def ClearOfTable (node : Node) (index : Nat) : Prop :=
  ∀ bytes, node.record index = .ok bytes →
    ∃ start stop, node.offset index = .ok start ∧ node.offset (index + 1) = .ok stop ∧
      bytes = node.data.toList.extract start stop ∧ NodeDescriptor.size ≤ start ∧ start ≤ stop ∧
      stop + 2 * (node.recordCount + 1) ≤ node.data.size

/-- A record that can be read lies behind the descriptor and in front of its own two
entries of the table. It is clear of the whole table if its end, as the table has it,
is in front of the table; and if that is not so, then one of the records behind it
cannot be read. -/
theorem clearOfTable_iff (h : parse number data = .ok node)
    (hrecord : node.record index = .ok bytes) :
    (∃ start stop, node.offset index = .ok start ∧ node.offset (index + 1) = .ok stop ∧
      bytes = data.extract start stop ∧ NodeDescriptor.size ≤ start ∧ start ≤ stop ∧
      stop + 2 * (index + 2) ≤ data.length) ∧
    (node.ClearOfTable index ↔
      node.entry (index + 1) + 2 * (node.recordCount + 1) ≤ data.length) ∧
    (¬ node.ClearOfTable index →
      ∃ later, index < later ∧ later < node.recordCount ∧
        ∃ damage, node.record later = .error (.corrupted damage)) := by
  have hdata : node.data.toList = data := by
    rw [data_of_parse h]
  have hsize : node.data.size = data.length := by
    rw [← hdata, Array.length_toList]
  obtain ⟨hindex, hfrom, horder, hto, hbytes⟩ := record_eq_ok_iff.mp hrecord
  have hstart : node.offset index = .ok (node.entry index) :=
    offset_eq_ok_iff.mpr ⟨rfl, hfrom, by omega⟩
  have hstop : node.offset (index + 1) = .ok (node.entry (index + 1)) :=
    offset_eq_ok_iff.mpr ⟨rfl, by omega, hto⟩
  have hclear : node.ClearOfTable index ↔
      node.entry (index + 1) + 2 * (node.recordCount + 1) ≤ data.length := by
    constructor
    · intro hclear
      obtain ⟨start, stop, -, hfound, -, -, -, hfront⟩ := hclear bytes hrecord
      cases hstop.symm.trans hfound
      rw [← hsize]
      exact hfront
    · intro hfront other hother
      cases hrecord.symm.trans hother
      exact ⟨_, _, hstart, hstop, hbytes, hfrom, horder, hsize ▸ hfront⟩
  rw [hdata] at hbytes
  rw [hsize] at hto
  refine ⟨⟨_, _, hstart, hstop, hbytes, hfrom, horder, hto⟩, hclear, fun hnot => ?_⟩
  by_contra hnone
  -- Were all of them readable, the last one would bound this record too.
  have hreadable : ∀ i, index ≤ i → i < node.recordCount →
      ∃ bytes, node.record i = .ok bytes := by
    intro i hle hi
    rcases Nat.lt_or_eq_of_le hle with hlt | rfl
    · by_contra hunreadable
      exact hnone ⟨i, hlt, hi, damage_of_unreadable hunreadable⟩
    · exact ⟨bytes, hrecord⟩
  obtain ⟨hbehind, hlast⟩ := entries_of_readable hindex hreadable
  exact hnot (hclear.mpr (by omega))

/-! ### A sample

A leaf of 512 bytes with two records, packed but for one entry: the record behind the
first is said to begin at 508, which is where the entry that says so stands. The entry
for free space is at 506, in the first record. -/

def overrunZeros : Bytes := List.replicate 492 0

def overrunContents : NodeContents where
  forwardLink := 0
  backwardLink := 0
  kind := .leaf
  height := 1
  reserved := 0
  records := [overrunZeros, []]
  free := []

def overrunBytes : Bytes :=
  overrunContents.front ++ overrunZeros ++ BigEndian.ofNat 2 506 ++ BigEndian.ofNat 2 508 ++
    BigEndian.ofNat 2 14

def overrunNode : Node := ⟨1, overrunContents.descriptor, overrunBytes.toArray⟩

theorem length_overrunZeros : overrunZeros.length = 492 := List.length_replicate

theorem overrun_offsets : overrunNode.offset 0 = .ok 14 ∧ overrunNode.offset 1 = .ok 508 := by
  have hfront := overrunContents.length_front
  constructor
  · have hbytes : overrunNode.data.toList = overrunContents.front ++ overrunZeros ++
        BigEndian.ofNat 2 506 ++ BigEndian.ofNat 2 508 ++ BigEndian.ofNat 2 14 ++ [] :=
      (List.append_nil _).symm
    refine offset_of_entry hbytes rfl (by decide) (by decide) ?_
    simp only [List.length_append, hfront, length_overrunZeros, BigEndian.length_ofNat]
    decide
  · have hbytes : overrunNode.data.toList = overrunContents.front ++ overrunZeros ++
        BigEndian.ofNat 2 506 ++ BigEndian.ofNat 2 508 ++ BigEndian.ofNat 2 14 := rfl
    refine offset_of_entry hbytes (BigEndian.length_ofNat _ _) (by decide) (by decide) ?_
    simp only [List.length_append, hfront, length_overrunZeros, BigEndian.length_ofNat]
    decide

theorem parse_overrunBytes : parse 1 overrunBytes = .ok overrunNode := by
  have hdescriptor : NodeDescriptor.format.read overrunBytes = .ok overrunContents.descriptor := by
    rw [overrunBytes, ← overrunContents.encode_descriptor (by decide), List.append_assoc,
      List.append_assoc, List.append_assoc]
    exact Format.read_encode _ _
  have hfirst := overrun_offsets.1
  rw [overrunNode] at hfirst ⊢
  simp only [parse, hdescriptor, bind, Except.bind, hfirst]
  rfl

theorem overrun_record :
    overrunNode.record 0 = .ok (overrunZeros ++ BigEndian.ofNat 2 506) := by
  have hfront := overrunContents.length_front
  have hbytes : overrunNode.data.toList = overrunContents.front ++
      (overrunZeros ++ BigEndian.ofNat 2 506) ++
      (BigEndian.ofNat 2 508 ++ BigEndian.ofNat 2 14) := by
    simp only [overrunNode, overrunBytes, List.append_assoc]
  refine record_of_offsets hbytes (by decide) ?_ ?_
  · rw [hfront]
    exact overrun_offsets.1
  · rw [hfront, List.length_append, length_overrunZeros, BigEndian.length_ofNat]
    exact overrun_offsets.2

theorem recordCount_overrunNode : overrunNode.recordCount = 2 := rfl

theorem length_overrunBytes : overrunBytes.length = 512 := by
  simp only [overrunBytes, List.length_append, overrunContents.length_front,
    length_overrunZeros, BigEndian.length_ofNat, NodeDescriptor.size]

theorem size_overrunNode : overrunNode.data.size = 512 := by
  rw [overrunNode, List.size_toArray, length_overrunBytes]

theorem overrun_covers : ¬ overrunNode.ClearOfTable 0 := by
  intro hclear
  obtain ⟨start, stop, -, hstop, -, -, -, hfront⟩ := hclear _ overrun_record
  cases overrun_offsets.2.symm.trans hstop
  rw [recordCount_overrunNode, size_overrunNode] at hfront
  omega

/-- The first record is handed out with an entry of the table in it: no slice between
the descriptor and the table is as long. -/
theorem overrun_not_clear :
    parse 1 overrunBytes = .ok overrunNode ∧
    overrunNode.record 0 = .ok (overrunZeros ++ BigEndian.ofNat 2 506) ∧
    ¬ overrunNode.ClearOfTable 0 ∧
    ∀ start stop, NodeDescriptor.size ≤ start →
      stop + 2 * (overrunNode.recordCount + 1) ≤ overrunBytes.length →
      overrunZeros ++ BigEndian.ofNat 2 506 ≠ overrunBytes.extract start stop := by
  refine ⟨parse_overrunBytes, overrun_record, overrun_covers, ?_⟩
  intro start stop hfrom hto heq
  have hsame := congrArg List.length heq
  rw [List.length_append, length_overrunZeros, BigEndian.length_ofNat,
    List.extract_eq_take_drop, List.length_take] at hsame
  rw [recordCount_overrunNode, length_overrunBytes] at hto
  rw [NodeDescriptor.size] at hfrom
  omega

theorem overrun_next_damaged :
    overrunZeros ++ BigEndian.ofNat 2 506 = overrunBytes.extract 14 508 ∧
    ∃ damage, overrunNode.record 1 = .error (.corrupted damage) := by
  obtain ⟨⟨start, stop, hstart, hstop, hslice, -⟩, -, hbehind⟩ :=
    clearOfTable_iff parse_overrunBytes overrun_record
  cases overrun_offsets.1.symm.trans hstart
  cases overrun_offsets.2.symm.trans hstop
  obtain ⟨later, hlater, hcount, hdamage⟩ := hbehind overrun_covers
  have hone : later = 1 := by
    rw [recordCount_overrunNode] at hcount
    omega
  exact ⟨hslice, hone ▸ hdamage⟩

/-- A packed node is cut into its records, an empty one among them; the node above has
one that cannot be read. -/
theorem full_tiles :
    (∃ records : List Bytes, records.length = 2 ∧
      (∀ i, ∀ hi : i < records.length,
        (NodeContents.fullContents.node 3).record i = .ok records[i]) ∧
      records.flatten = NodeContents.fullContents.bytes.extract 14 19) ∧
    ∃ i < 2, ∃ damage, overrunNode.record i = .error (.corrupted damage) := by
  constructor
  · have hfits : NodeContents.fullContents.bytes.length ≤ Tree.maxNodeSize := by decide
    have hcount := NodeContents.fullContents.recordCount_node hfits 3
    have hlast : (NodeContents.fullContents.node 3).entry 2 = 19 :=
      (offset_eq_ok_iff.mp (NodeContents.fullContents.offset_node hfits (by decide) 3)).1
    obtain ⟨records, hlength, hrecords, hflatten, -⟩ :=
      (records_tile (NodeContents.fullContents.parse_bytes hfits 3)).1 fun i hi =>
        ⟨_, NodeContents.fullContents.record_node hfits (hcount ▸ hi) 3⟩
    rw [hcount] at hlength hflatten
    refine ⟨records, hlength, fun i hi => (hrecords i hi).1, ?_⟩
    rw [hflatten, ← hlast]
    rfl
  · refine (records_tile parse_overrunBytes).2 fun hordered => ?_
    have hsecond : overrunNode.entry 1 = 508 := (offset_eq_ok_iff.mp overrun_offsets.2).1
    have hrise : overrunNode.entry 1 ≤ overrunNode.entry 2 := hordered.ascending 1 (by decide)
    have hlast := hordered.last_le
    rw [recordCount_overrunNode, size_overrunNode] at hlast
    omega

end Node

end HfsPlus
