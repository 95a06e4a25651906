import HfsPlus.Proofs.Checked.Catalog
import HfsPlus.Proofs.Checked.Reach

/-!
# No operation traps

An `Operation` is one of those that have to do with what lies on a volume, with
operands as wide as the words that hold them. Each is there twice, as the run that
it is (`Operation.run`) and as a program that checks its steps
(`Operation.checked`), and the two are one: whatever the volume holds, no step
fails. Besides, no operation on an image asks for a block whose offset does not fit
its word.
-/

namespace HfsPlus

/-- An operation, by the type of its answer. What it has in hand is any value of
its type; of strings there are those that a word can count. -/
inductive Operation : Type → Type where
  | resolve (fork : Fork) (logicalBlock : UInt32) : Operation Extent
  | readAt (fork : Fork) (pos : UInt64) (buf : Bytes) : Operation Bytes
  | readWhole (fork : Fork) (limit : Nat) : Operation Bytes
  | parseNode (number : UInt32) (data : Bytes) (fits : data.length < UInt64.size) :
      Operation Node
  | record (node : Node) (fits : node.data.size < UInt64.size) (index : UInt16) :
      Operation Bytes
  | keyedRecord (node : Node) (fits : node.data.size < UInt64.size) (index : UInt16) :
      Operation KeyedRecord
  | child (r : KeyedRecord) : Operation UInt32
  | readNode (tree : Tree) (number : UInt32) : Operation Node
  | search (tree : Tree) (order : KeyedRecord → Except Error Ordering) (skip : UInt64) :
      Operation Hit
  | skipForward (tree : Tree) (node : Node) (index : UInt16) (skip : UInt64) : Operation Hit
  | parseKey (r : KeyedRecord) : Operation CatalogKey
  | compare (key : CatalogKey) (r : KeyedRecord) : Operation Ordering
  | parseRecord (data : Bytes) : Operation CatalogRecord
  | lookup (folder : Entry) (name : Name) : Operation Entry
  | next (c : Cursor) : Operation (Entry × Cursor)

namespace Operation

variable {α : Type}

/-- What the operation does, on this volume. -/
def run (v : Volume) : Operation α → Run α
  | .resolve fork logicalBlock => fork.resolve logicalBlock
  | .readAt fork pos buf => fork.readAt v.device pos.toNat buf.length
  | .readWhole fork limit => fork.readWhole v.device limit
  | .parseNode number data _ => Run.ofExcept (Node.parse number data)
  | .record node _ index => Run.ofExcept (node.record index.toNat)
  | .keyedRecord node _ index => Run.ofExcept (node.keyedRecord index.toNat)
  | .child r => Run.ofExcept r.child
  | .readNode tree number => tree.readNode v.device number
  | .search tree order skip => tree.search v.device order skip.toNat
  | .skipForward tree node index skip =>
    Tree.advance (tree.readNode v.device) tree (tree.totalNodes.toNat - 1) node index.toNat
      skip.toNat
  | .parseKey r => Run.ofExcept (CatalogKey.ofRecord r)
  | .compare key r => Run.ofExcept (key.orderRecord r)
  | .parseRecord data => Run.ofExcept (CatalogRecord.parse data)
  | .lookup folder name => v.lookup folder name
  | .next c => (·, (c.next v).2) <$> (c.next v).1

/-- The program of the operation, with its operands in their words. -/
def checked (v : Volume) : Operation α → Checked α
  | .resolve fork logicalBlock => Checked.resolve fork logicalBlock
  | .readAt fork pos buf => Checked.readAt v.device fork pos.toNat buf
  | .readWhole fork limit => Checked.readWhole v.device fork limit
  | .parseNode number data _ => Checked.parseNode number data
  | .record node _ index => Checked.record node index.toNat
  | .keyedRecord node _ index => Checked.keyedRecord node index.toNat
  | .child r => Checked.child r
  | .readNode tree number => Checked.readNode v.device tree number
  | .search tree order skip =>
    Checked.search v.device tree (fun r => liftM (order r)) skip.toNat
  | .skipForward tree node index skip =>
    Checked.skipForward v.device tree (tree.totalNodes.toNat + 1) node index.toNat skip.toNat 0
  | .parseKey r => Checked.parseKey r
  | .compare key r => Checked.orderRecord key r
  | .parseRecord data => Checked.parseCatalogRecord data
  | .lookup folder name => Checked.lookup v folder name
  | .next c => Checked.next v c

/-- The comparison that an operation was given does not answer with this error. -/
def NotByComparison (e : Error) : Operation α → Prop
  | .search _ order _ => ∀ r, order r ≠ .error e
  | _ => True

theorem checked_eq (op : Operation α) (v : Volume) : op.checked v = liftM (op.run v) := by
  cases op with
  | resolve fork logicalBlock => exact Checked.resolve_eq fork logicalBlock
  | readAt fork pos buf => exact Checked.readAt_eq v.device fork pos.toNat_lt buf
  | readWhole fork limit => exact Checked.readWhole_eq v.device fork limit
  | parseNode number data fits => exact Checked.parseNode_eq number fits
  | record node fits index => exact Checked.record_eq fits _
  | keyedRecord node fits index => exact Checked.keyedRecord_eq fits _
  | child r => exact Checked.child_eq r
  | readNode tree number => exact Checked.readNode_eq v.device tree number
  | search tree order skip => exact Checked.search_eq (fun _ => rfl) v.device tree _
  | skipForward tree node index skip =>
    exact Checked.skipForward_eq v.device tree (.inl rfl) (by omega)
  | parseKey r => exact Checked.parseKey_eq r
  | compare key r => exact Checked.orderRecord_eq key r
  | parseRecord data => exact Checked.parseCatalogRecord_eq data
  | lookup folder name => exact Checked.lookup_eq v folder name
  | next c => exact Checked.next_eq v c

theorem inReach (op : Operation α) {v : Volume} (hdev : v.device.Reaches) :
    (op.run v).InReach (op.NotByComparison .offsetOverflow) := by
  cases op with
  | resolve fork logicalBlock => exact Fork.inReach_resolve fork logicalBlock
  | readAt fork pos buf => exact Fork.inReach_readAt hdev fork _ _
  | readWhole fork limit => exact Fork.inReach_readWhole hdev fork limit
  | parseNode number data _ =>
    exact .ofExcept fun _ => (Node.onlyDamage_parse number data).ne_overflow
  | record node _ index => exact .ofExcept fun _ => (node.onlyDamage_record _).ne_overflow
  | keyedRecord node _ index =>
    exact .ofExcept fun _ => (node.onlyDamage_keyedRecord _).ne_overflow
  | child r => exact .ofExcept fun _ => r.onlyDamage_child.ne_overflow
  | readNode tree number => exact Tree.inReach_readNode hdev tree number
  | search tree order skip => exact Tree.inReach_search hdev tree id _
  | skipForward tree node index skip =>
    exact Tree.inReach_advance hdev tree _ node _ _
  | parseKey r => exact .ofExcept fun _ => (CatalogKey.onlyDamage_ofRecord r).ne_overflow
  | compare key r => exact .ofExcept fun _ => (key.onlyDamage_orderRecord r).ne_overflow
  | parseRecord data => exact .ofExcept fun _ => (CatalogRecord.onlyDamage_parse data).ne_overflow
  | lookup folder name => exact Volume.inReach_lookup hdev folder name
  | next c => exact (Volume.inReach_next hdev c).map _

/-- Whatever the device holds, and whatever the operands are, each sum, difference,
product, quotient, byte and slice of an operation is there, and each of its loops
ends: the program that checks them does what the operation does, to the last event.
On an image, no block is refused because its offset does not fit 64 bits, and this
is not how the operation ends either, unless a comparison that it was given says
so. -/
theorem checked_never_traps (op : Operation α) (v : Volume) :
    (op.checked v).run = Except.ok <$> op.run v ∧
    ∀ (image : Array UInt8) (blockSize : UInt32),
      v.device = (Device.ofImage image).withBlockSize blockSize →
      (∀ block, .refused block .offsetOverflow ∉ (op.run v).events) ∧
      (op.NotByComparison .offsetOverflow →
        (op.run v).result ≠ .error (.device .offsetOverflow)) := by
  refine ⟨?_, fun image blockSize hdevice => ?_⟩
  · rw [op.checked_eq v, Checked.run_liftM]
  · have hreach := op.inReach (hdevice ▸ Device.reaches_ofImage image blockSize)
    exact ⟨hreach.not_refused, hreach.result_ne⟩

/-- A node of 52 bytes that counts 65535 records. -/
def crowdedNode : Node :=
  { Tree.sampleLeft with
    descriptor := { Tree.sampleLeft.descriptor with recordCount := 65535 } }

theorem crowdedNode_fits : crowdedNode.data.size < UInt64.size := by
  decide +kernel

/-- The last record of a node that cannot have so many, and the last position that a
cursor can have, in a folder whose leaves run in a circle. -/
theorem circle_never_traps :
    ((record crowdedNode crowdedNode_fits 65534).checked Volume.circleVolume).run.result =
      .error (.corrupted (.offsetTableOverrun 1)) ∧
    ((next ⟨.root, 18446744073709551615⟩).checked Volume.circleVolume).run.result =
      .error (.corrupted (.endlessSiblings .catalogFile 4)) ∧
    (∀ block, .refused block .offsetOverflow ∉
      ((next ⟨.root, 18446744073709551615⟩).run Volume.circleVolume).events) ∧
    ((next ⟨.root, 18446744073709551615⟩).run Volume.circleVolume).result ≠
      .error (.device .offsetOverflow) := by
  have hrecord : ((record crowdedNode crowdedNode_fits 65534).run Volume.circleVolume).result =
      .error (.corrupted (.offsetTableOverrun 1)) := by
    decide +kernel
  have hnext : ((next ⟨.root, 18446744073709551615⟩).run Volume.circleVolume).result =
      .error (.corrupted (.endlessSiblings .catalogFile 4)) := by
    decide +kernel
  obtain ⟨hlast, -⟩ :=
    checked_never_traps (record crowdedNode crowdedNode_fits 65534) Volume.circleVolume
  obtain ⟨hfar, hreach⟩ :=
    checked_never_traps (next ⟨.root, 18446744073709551615⟩) Volume.circleVolume
  obtain ⟨hrefused, hresult⟩ := hreach Tree.circleImage 26 rfl
  refine ⟨?_, ?_, hrefused, hresult trivial⟩
  · rw [hlast, Run.result_map, hrecord]
    rfl
  · rw [hfar, Run.result_map, hnext]
    rfl

end Operation

end HfsPlus
