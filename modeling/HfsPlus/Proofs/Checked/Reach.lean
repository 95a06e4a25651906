import HfsPlus.Proofs.Checked.Basic
import HfsPlus.Proofs.Tree.NotFound
import HfsPlus.Proofs.Volume.Query

/-!
# Block offsets

An image finds a block at the product of its number and the size of a block, and
says so when that does not fit 64 bits. It never has to. The blocks of a fork have
numbers of 32 bits, the sum of a start and a distance being checked when an extent
is resolved, and the size of a block has 32 bits as well
(`Device.imageBlock_ne_overflow`).

`Run.InReach` says of a run that it met with no such answer, and does not end in
one. Of the second the comparison in a search has a say: it may answer with
whatever error it likes, and so there is a condition on it to carry along.
-/

namespace HfsPlus

variable {α β : Type} {own : Prop} {dev : Device}

/-- The error of a block whose offset does not fit. -/
abbrev Error.offsetOverflow : Error := .device .offsetOverflow

namespace Device

/-- Every block with a number of 32 bits has an offset. -/
def Reaches (dev : Device) : Prop :=
  ∀ size : UInt32, ∀ block < UInt32.size, dev.fetch size block ≠ .error .offsetOverflow

theorem imageBlock_ne_overflow (image : Array UInt8) (size : UInt32) {block : Nat}
    (h : block < UInt32.size) : imageBlock image size block ≠ .error .offsetOverflow := by
  have hstart : block * size.toNat < UInt64.size := Checked.mul_lt_size h size.toNat_lt
  simp only [imageBlock]
  rw [if_neg (Nat.not_le.mpr hstart)]
  split <;> simp

theorem reaches_ofImage (image : Array UInt8) (blockSize : UInt32) :
    ((ofImage image).withBlockSize blockSize).Reaches :=
  fun size _ h => imageBlock_ne_overflow image size h

end Device

/-! ## Runs that meet with no overflow -/

/-- No block was refused because of its offset, and if `own` holds this is not how
the run ends. -/
structure Run.InReach (own : Prop) (r : Run α) : Prop where
  not_refused : ∀ block, .refused block .offsetOverflow ∉ r.events
  result_ne : own → r.result ≠ .error .offsetOverflow

theorem OnlyDamage.ne_overflow {x : Except Error α} (h : OnlyDamage x) :
    x ≠ .error .offsetOverflow := by
  intro he
  obtain ⟨damage, hdamage⟩ := h _ he
  cases hdamage

namespace Run.InReach

variable {r : Run α} {next : α → Run β}

theorem ofExcept {x : Except Error α} (h : own → x ≠ .error .offsetOverflow) :
    InReach own (Run.ofExcept x) :=
  ⟨by simp [Run.ofExcept], h⟩

theorem pure (a : α) : InReach own (Pure.pure a : Run α) := ofExcept fun _ => by simp

theorem fail {e : Error} (h : e ≠ .offsetOverflow) : InReach own (Run.fail e : Run α) :=
  ofExcept fun _ he => h (Except.error.inj he)

theorem note (n : Notice) : InReach own (Run.note n) :=
  ⟨by simp [Run.note, Run.act], fun _ => by simp [Run.note, Run.act]⟩

theorem liftM {x : Except Error α} (h : own → x ≠ .error .offsetOverflow) :
    InReach own (liftM x : Run α) := ofExcept h

theorem bind_of_ok (h : InReach own r)
    (hnext : ∀ a, r.result = .ok a → InReach own (next a)) : InReach own (r >>= next) := by
  cases hr : r.result with
  | error e =>
    have hne := h.result_ne
    rw [hr] at hne
    rw [Run.bind_of_error hr]
    refine ⟨h.not_refused, fun hown he => hne hown ?_⟩
    rw [Except.error.inj he]
  | ok a =>
    rw [Run.bind_of_ok hr]
    have hrest := hnext a hr
    refine ⟨fun block hmem => ?_, hrest.result_ne⟩
    rcases List.mem_append.mp hmem with hmem | hmem
    · exact h.not_refused block hmem
    · exact hrest.not_refused block hmem

theorem bind (h : InReach own r) (hnext : ∀ a, InReach own (next a)) :
    InReach own (r >>= next) := h.bind_of_ok fun a _ => hnext a

theorem map (f : α → β) (h : InReach own r) : InReach own (f <$> r) := by
  rw [← bind_pure_comp]
  exact h.bind fun a => pure (f a)

theorem withBlock (hdev : dev.Reaches) (block : UInt32) {use : Bytes → Except Error α}
    (huse : ∀ data, use data ≠ .error .offsetOverflow) :
    InReach own (dev.withBlock block.toNat use) := by
  have hfetch := hdev dev.blockSize block.toNat block.toNat_lt
  rw [Device.withBlock]
  cases h : dev.fetch dev.blockSize block.toNat with
  | error fault =>
    have hfault : .offsetOverflow ≠ fault := fun he => hfetch (he ▸ h)
    exact ⟨by simp [hfault], by simp [hfault.symm]⟩
  | ok data =>
    refine ⟨by simp, fun _ => ?_⟩
    simp only []
    split
    · simp
    · exact huse data

end Run.InReach

/-! ## Forks -/

namespace Fork

variable {fork : Fork}

theorem resolveFrom_ne_overflow (logicalBlock : UInt32) (descriptors : List ExtentDescriptor)
    (ahead : UInt32) :
    ExtentRecord.resolveFrom logicalBlock descriptors ahead ≠ .error .offsetOverflow := by
  fun_induction ExtentRecord.resolveFrom logicalBlock descriptors ahead with
  | case5 _ _ _ _ _ ih => exact ih
  | _ => simp

theorem inReach_resolve (fork : Fork) (logicalBlock : UInt32) :
    (fork.resolve logicalBlock).InReach own := by
  rw [resolve]
  split
  · exact (Run.InReach.note _).bind fun _ => .fail (by simp)
  · exact .ofExcept fun _ => resolveFrom_ne_overflow logicalBlock _ logicalBlock

theorem inReach_readBlocks (hdev : dev.Reaches) (hsize : 0 < dev.blockSize.toNat) (pos len : Nat) :
    (readBlocks dev fork hsize pos len).InReach own := by
  fun_induction readBlocks dev fork hsize pos len with
  | case1 pos => exact .pure _
  | case2 pos len hlen blockSize logicalBlock hout => exact .fail (by simp)
  | case3 pos len hlen blockSize logicalBlock hin ih =>
    refine (inReach_resolve fork _).bind fun extent => ?_
    refine Run.InReach.bind ?_ fun piece => ih.map _
    exact .withBlock hdev extent.physicalStart fun data => by simp

theorem inReach_readAt (hdev : dev.Reaches) (fork : Fork) (pos len : Nat) :
    (fork.readAt dev pos len).InReach own := by
  simp only [readAt]
  split
  · exact .fail (by simp)
  · split
    · exact inReach_readBlocks hdev _ pos len
    · exact .fail (by simp)

theorem inReach_readWhole (hdev : dev.Reaches) (fork : Fork) (limit : Nat) :
    (fork.readWhole dev limit).InReach own := by
  simp only [readWhole]
  split
  · exact .fail (by simp)
  · split
    · exact .fail (by simp)
    · exact inReach_readAt hdev fork 0 _

end Fork

/-! ## Trees -/

namespace Tree

variable {tree : Tree} {load : UInt32 → Run Node} {order : KeyedRecord → Except Error Ordering}

theorem inReach_readNode (hdev : dev.Reaches) (tree : Tree) (number : UInt32) :
    (tree.readNode dev number).InReach own :=
  (Fork.inReach_readAt hdev tree.fork _ _).bind fun bytes =>
    (Run.InReach.note _).bind fun _ => .liftM fun _ =>
      (Node.onlyDamage_parse number bytes).ne_overflow

theorem inReach_of_loads {r : Run α} (hload : ∀ number, (load number).InReach own)
    (h : Run.Loads load (fun e => own → e ≠ .offsetOverflow) r) : r.InReach own := by
  induction h with
  | ofExcept hown => exact .ofExcept fun h he => hown _ he h rfl
  | descending id child => exact .note _
  | load number => exact hload number
  | bind _ _ ih ihbehind => exact ih.bind_of_ok ihbehind

theorem inReach_advance (hdev : dev.Reaches) (tree : Tree) (hops : Nat) (node : Node)
    (index skip : Nat) :
    (advance (tree.readNode dev) tree hops node index skip).InReach own := by
  refine inReach_of_loads (inReach_readNode hdev tree)
    (Run.InStep.loads (inStep_advance ?_ ?_) fun _ => .refl _)
  · exact fun _ _ => by simp
  · exact fun _ _ => by simp

/-- What a search itself ends in is the damage of a node, or that nothing was found,
or an error of its order. -/
theorem inReach_search (hdev : dev.Reaches) (tree : Tree)
    (horder : own → ∀ r, order r ≠ .error .offsetOverflow) (skip : Nat) :
    (tree.search dev order skip).InReach own := by
  refine inReach_of_loads (inReach_readNode hdev tree) (loads_searchWith (fun _ => rfl)
    (fun _ _ => by simp) (fun _ _ => by simp) ?_)
  rintro r e - he hown rfl
  exact horder hown r he

end Tree

/-! ## Folders -/

theorem CatalogKey.onlyDamage_ofRecord (r : KeyedRecord) : OnlyDamage (ofRecord r) := by
  rw [ofRecord]
  split
  · simp only []
    split
    · exact onlyDamage_corrupted _
    · exact onlyDamage_ok _
  · exact onlyDamage_corrupted _

theorem CatalogKey.onlyDamage_orderRecord (key : CatalogKey) (r : KeyedRecord) :
    OnlyDamage (key.orderRecord r) :=
  (onlyDamage_ofRecord r).bind fun _ => onlyDamage_ok _

theorem Format.onlyDamage_read (f : Format α) (bs : Bytes) : OnlyDamage (f.read bs) := by
  rw [read]
  split
  · exact onlyDamage_ok _
  · exact onlyDamage_corrupted _

theorem CatalogRecord.onlyDamage_parse (data : Bytes) : OnlyDamage (parse data) := by
  rw [parse]
  split
  · split
    · exact (FolderRecord.format.onlyDamage_read data).bind fun _ => onlyDamage_ok _
    · exact (FileRecord.format.onlyDamage_read data).bind fun _ => onlyDamage_ok _
    · exact (ThreadRecord.format.onlyDamage_read data).bind fun _ => onlyDamage_ok _
    · exact (ThreadRecord.format.onlyDamage_read data).bind fun _ => onlyDamage_ok _
    · exact onlyDamage_ok _
  · exact onlyDamage_corrupted _

namespace Volume

variable {v : Volume}

theorem inReach_entryOf (hit : Hit) : (entryOf hit).InReach own := by
  rw [entryOf]
  refine Run.InReach.bind (.liftM fun _ =>
    (hit.node.onlyDamage_keyedRecord hit.index).ne_overflow) fun r => ?_
  refine Run.InReach.bind (.liftM fun _ =>
    (CatalogKey.onlyDamage_ofRecord r).ne_overflow) fun key => ?_
  refine Run.InReach.bind (.liftM fun _ =>
    (CatalogRecord.onlyDamage_parse r.data).ne_overflow) fun record => ?_
  split
  · exact (Run.InReach.note _).bind fun _ => .pure _
  · exact (Run.InReach.pure _).bind fun _ => .pure _

theorem inReach_lookup (hdev : v.device.Reaches) (folder : Entry) (name : Name) :
    (v.lookup folder name).InReach own := by
  simp only [lookup]
  split
  · refine (Tree.inReach_search hdev v.catalog (fun _ r =>
      (CatalogKey.onlyDamage_orderRecord _ r).ne_overflow) 0).bind fun hit => ?_
    exact (inReach_entryOf hit).bind fun entry => (Run.InReach.note _).bind fun _ => .pure _
  · exact .fail (by simp)

theorem inReach_entryAt (hdev : v.device.Reaches) (folder : Entry) (position : Nat) :
    (v.entryAt folder position).InReach own := by
  refine (Tree.inReach_search hdev v.catalog (fun _ r =>
    (CatalogKey.onlyDamage_orderRecord _ r).ne_overflow) position).bind fun hit => ?_
  refine Run.InReach.bind (.liftM fun _ =>
    (hit.node.onlyDamage_keyedRecord hit.index).ne_overflow) fun r => ?_
  refine Run.InReach.bind (.liftM fun _ =>
    (CatalogKey.onlyDamage_ofRecord r).ne_overflow) fun found => ?_
  split
  · exact inReach_entryOf hit
  · exact (Run.InReach.note _).bind fun _ => .fail (by simp)

theorem inReach_next (hdev : v.device.Reaches) (c : Cursor) : (c.next v).1.InReach own := by
  have hread : (v.entryAt c.folder c.position.toNat).InReach own := inReach_entryAt hdev _ _
  rw [Cursor.next]
  split <;> exact hread

end Volume

end HfsPlus
