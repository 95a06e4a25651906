import HfsPlus.Device.Faulty
import HfsPlus.Proofs.Volume.Enumerate
import HfsPlus.Proofs.Volume.Mount
import HfsPlus.Proofs.Volume.Query

/-!
# A device that fails

Devices fail at any request, and they hand out blocks that are too short. Here
nothing is assumed of the device, nor of what lies on it.

Every operation is a run in the sense of `Run.Reads`, and all that is left to do
is to say so of each. A mount is two of them in sequence, since it changes the
size of the blocks in between.
-/

namespace HfsPlus.Volume

variable {dev : Device} {header : VolumeHeader}

theorem reads_openCatalog (dev : Device) (header : VolumeHeader) :
    Run.Reads (dev.withBlockSize header.blockSize) header.catalogFile.extents.Covers
      (openCatalog dev header) := by
  rw [openCatalog]
  split
  · split
    · exact (Tree.reads_ofFork _ _ header.catalogFile.fork).bind fun catalog _ =>
        (Run.Reads.note _).bind fun _ _ => .pure _
    · exact .fail _
  · exact (Run.Reads.note _).bind fun _ _ => .fail _

theorem handsBack_mount (dev : Device) : (mount dev).HandsBack := by
  rw [mount]
  exact (Run.HandsBack.withBlock _ _ _).bind fun header _ =>
    (reads_openCatalog dev header).handsBack

/-- No operation keeps a block, whatever becomes of it: when it has ended, all
that the device handed out was handed back, once each, and nothing else was; and
before that there is never more than one block in hand. -/
theorem hands_back :
    (∀ dev : Device, (mount dev).HandsBack) ∧
    (∀ (dev : Device) (id : CatalogId) (fork : Fork), (Tree.ofFork dev id fork).HandsBack) ∧
    (∀ (dev : Device) (fork : Fork) (limit : Nat), (fork.readWhole dev limit).HandsBack) ∧
    ∀ (v : Volume) {α : Type} (q : Query α), (q.run v).HandsBack :=
  ⟨handsBack_mount, fun dev id fork => (Tree.reads_ofFork dev id fork).handsBack,
    fun dev fork limit => (Fork.reads_readWhole dev fork limit).handsBack,
    fun v _ q => (q.reads v).handsBack⟩

/-! ## Failures -/

theorem mount_of_failure {e : Error} (h : (dev.withBlockSize 512).failure? 2 = some e) :
    (mount dev).requests = [2] ∧ (mount dev).result = .error e :=
  mount_of_unreadable (Run.result_withBlock_of_failure h _)

theorem mount_of_later_failure (has : HasHeader dev header) {before after : List Nat}
    {block : Nat} {e : Error} (hrequests : (mount dev).requests = 2 :: before ++ block :: after)
    (h : (dev.withBlockSize header.blockSize).failure? block = some e) :
    after = [] ∧ (mount dev).result = .error e := by
  obtain ⟨hblocks, hresult⟩ := mount_of_hasHeader has
  rw [hblocks, List.cons_append, List.cons.injEq] at hrequests
  rw [hresult]
  exact (reads_openCatalog dev header).stopsAtFailure before block after e hrequests.2 h

theorem cursor_of_error {v : Volume} {c : Cursor} {e : Error}
    (h : (c.next v).1.result = .error e) : (c.next v).2 = c := by
  rw [Cursor.next] at h ⊢
  split at h
  · next hfound => cases hfound.symm.trans h
  · rfl

/-- A request that fails, or that is answered with less than a block, is the last
one of the operation that made it, and the operation ends with its error and no
other. A cursor stays where it is. -/
theorem stops_at_failure :
    (∀ (v : Volume) {α : Type} (q : Query α), (q.run v).StopsAtFailure v.device) ∧
    (∀ (v : Volume) (c : Cursor) (block : Nat) (e : Error), block ∈ (c.next v).1.requests →
      v.device.failure? block = some e → (c.next v).2 = c) ∧
    (∀ (dev : Device) (id : CatalogId) (fork : Fork),
      (Tree.ofFork dev id fork).StopsAtFailure dev) ∧
    (∀ (dev : Device) (fork : Fork) (limit : Nat),
      (fork.readWhole dev limit).StopsAtFailure dev) ∧
    (∀ (dev : Device) (e : Error), (dev.withBlockSize 512).failure? 2 = some e →
      (mount dev).requests = [2] ∧ (mount dev).result = .error e) ∧
    ∀ (dev : Device) (header : VolumeHeader), HasHeader dev header →
      ∀ before block after e, (mount dev).requests = 2 :: before ++ block :: after →
        (dev.withBlockSize header.blockSize).failure? block = some e →
        after = [] ∧ (mount dev).result = .error e := by
  refine ⟨fun v α q => (q.reads v).stopsAtFailure, fun v c block e hmem he => ?_,
    fun dev id fork => (Tree.reads_ofFork dev id fork).stopsAtFailure,
    fun dev fork limit => (Fork.reads_readWhole dev fork limit).stopsAtFailure,
    fun dev e => mount_of_failure, fun dev header has before block after e =>
      mount_of_later_failure has⟩
  obtain ⟨before, after, hsplit⟩ := List.append_of_mem hmem
  obtain ⟨-, hresult⟩ := (reads_next v c).stopsAtFailure before block after e hsplit he
  exact cursor_of_error hresult

/-! ### A sample

`sampleVolume`, on a device that refuses a block of the second leaf. -/

def faultyVolume : Volume :=
  { sampleVolume with device := Tree.sampleDevice.withFaults { refused := [2] } }

theorem faultyVolume_requests :
    ((⟨.root, 2⟩ : Cursor).next faultyVolume).1.requests = [4, 5, 0, 1, 2] := by
  decide +kernel

theorem faulty_next_stops :
    faultyVolume.device.failure? 2 = some (.device (.blockFailed 2)) ∧
    ((⟨.root, 2⟩ : Cursor).next faultyVolume).1.result = .error (.device (.blockFailed 2)) ∧
    ((⟨.root, 2⟩ : Cursor).next faultyVolume).2 = ⟨.root, 2⟩ := by
  have hfails : faultyVolume.device.failure? 2 = some (.device (.blockFailed 2)) := by decide
  have hlast : 2 ∈ ((⟨.root, 2⟩ : Cursor).next faultyVolume).1.requests := by
    rw [faultyVolume_requests]
    decide
  obtain ⟨hquery, hcursor, -⟩ := stops_at_failure
  obtain ⟨-, hresult⟩ := hquery faultyVolume (.next ⟨.root, 2⟩) [4, 5, 0, 1] 2 [] _
    faultyVolume_requests hfails
  exact ⟨hfails, map_eq_error_iff.mp hresult, hcursor _ _ 2 _ hlast hfails⟩

end HfsPlus.Volume
