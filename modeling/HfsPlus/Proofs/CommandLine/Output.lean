import HfsPlus.CommandLine.Run
import HfsPlus.Proofs.Fork.Image
import HfsPlus.Proofs.Volume.Consistent
import HfsPlus.Proofs.Volume.Failures
import HfsPlus.Proofs.Volume.Paths

/-!
# What is written before an error

What a command has written stays written when it fails later on. Nothing that
reads the volume writes, and all commands but one write when there is nothing
left to read: they have written everything or nothing (`Run.HoldsBack`).

The one is the copy of a file's contents, which writes each chunk before it
reads the next. If it fails, it does so in the middle of a chunk, and what it
has written are the chunks before that one, complete and in order
(`Volume.BreaksOff`). How far that is is told by the length of the output alone.
-/

namespace HfsPlus

namespace Run

variable {α β : Type} {dev : Device} {P : Nat → Prop} {r : Run α} {next : α → Run β}

theorem output_bind_of_ok {a : α} (h : r.result = .ok a) (next : α → Run β) :
    (r >>= next).output = r.output ++ (next a).output := by
  simp [output, events_bind_of_ok h]

theorem output_bind_of_error {e : Error} (h : r.result = .error e) (next : α → Run β) :
    (r >>= next).output = r.output := by
  simp [output, events_bind_of_error h]

theorem output_bind_of_silent (h : r.output = [])
    (hnext : ∀ a, r.result = .ok a → (next a).output = []) : (r >>= next).output = [] := by
  cases hr : r.result with
  | error e => rw [output_bind_of_error hr, h]
  | ok a => rw [output_bind_of_ok hr, h, hnext a hr, List.append_nil]

/-- Reading writes nothing. -/
theorem Reads.output_eq_nil (h : Reads dev P r) : r.output = [] := by
  induction h with
  | ofExcept x => rfl
  | note n => rfl
  | @withBlock α block _ use =>
    rw [output, Device.withBlock]
    cases dev.fetch dev.blockSize block <;> rfl
  | bind _ _ ih ihnext => exact output_bind_of_silent ih ihnext

/-- If the run fails, it has written nothing. -/
def HoldsBack (r : Run α) : Prop := ∀ e, r.result = .error e → r.output = []

theorem HoldsBack.printLines (lines : List String) : HoldsBack (Run.printLines lines) := by
  intro e h
  cases h

theorem HoldsBack.fail (e : Error) : HoldsBack (Run.fail e : Run α) := fun _ _ => rfl

/-- Before the last step nothing is written. -/
theorem HoldsBack.bind (h : r.output = [])
    (hnext : ∀ a, r.result = .ok a → HoldsBack (next a)) : HoldsBack (r >>= next) := by
  intro e he
  cases hr : r.result with
  | error _ => rw [output_bind_of_error hr, h]
  | ok a =>
    rw [result_bind_of_ok hr] at he
    rw [output_bind_of_ok hr, h, hnext a hr e he, List.append_nil]

end Run

/-! ## Reading in silence -/

namespace Volume

variable {v : Volume} {entry : Entry}

theorem output_mount (dev : Device) : (mount dev).output = [] := by
  rw [mount]
  exact Run.output_bind_of_silent (Run.Reads.withBlock (P := fun _ => True) trivial _).output_eq_nil
    fun header _ => (reads_openCatalog dev header).output_eq_nil

theorem output_lookupPath (v : Volume) (path : String) : (v.lookupPath path).output = [] :=
  (reads_walk v _ .root).output_eq_nil

theorem output_list (v : Volume) (limit : Nat) : ∀ c : Cursor, (c.list v limit).output = [] := by
  induction limit with
  | zero => exact fun _ => rfl
  | succ limit ih =>
    intro c
    have hnext : (c.next v).1.attempt.output = [] := (reads_next v c).output_eq_nil
    rw [Cursor.list]
    refine Run.output_bind_of_silent hnext fun found _ => ?_
    split
    · exact ih _
    · rfl
    · rfl

theorem output_entries (v : Volume) (folder : Entry) : (v.entries folder).output = [] := by
  refine Run.output_bind_of_silent (output_list v _ _) fun listing _ => ?_
  split <;> rfl

/-! ## A chunk at a time -/

section Chunks

variable {σ : Type} {step : σ → Bytes → Run σ} {pos : Nat} {state : σ}

theorem foldContents_of_lt (hlt : pos < entry.size.toNat) (state : σ) :
    v.foldContents entry step pos state = (do
      let len := min (entry.size.toNat - pos) chunkSize
      let chunk ← v.read entry pos len
      let next ← step state chunk
      v.foldContents entry step (pos + len) next) := by
  rw [foldContents, if_pos hlt]

theorem foldContents_of_le (hle : entry.size.toNat ≤ pos) (state : σ) :
    v.foldContents entry step pos state = pure state := by
  rw [foldContents, if_neg (Nat.not_lt.mpr hle)]

theorem output_foldContents (hstep : ∀ state chunk, (step state chunk).output = []) :
    (v.foldContents entry step pos state).output = [] := by
  fun_induction foldContents v entry step pos state with
  | case1 pos state hlt len ih =>
    exact Run.output_bind_of_silent (reads_read v entry pos len).output_eq_nil fun chunk _ =>
      Run.output_bind_of_silent (hstep state chunk) fun next _ => ih next
  | case2 pos state hle => rfl

end Chunks

theorem read_of_file (v : Volume) (hfile : ¬ entry.isFolder = true) (pos len : Nat) :
    v.read entry pos len = entry.dataFork.readAt v.device pos len :=
  if_neg hfile

theorem bytes_of_read {pos len : Nat} {bytes : Bytes}
    (h : (v.read entry pos len).result = .ok bytes) :
    bytes.length = len ∧ ∀ i < len, entry.dataFork.byte? v.device (pos + i) = bytes[i]? := by
  rw [read] at h
  split at h
  · cases h
  · exact Fork.bytes_of_readAt h

/-- Writes the entry's contents from byte `pos` on. -/
def copy (v : Volume) (entry : Entry) (pos : Nat) : Run Unit :=
  v.foldContents entry (fun _ chunk => Run.write chunk) pos ()

section Copy

variable {pos : Nat}

theorem copy_of_le (v : Volume) (h : entry.size.toNat ≤ pos) : v.copy entry pos = pure () :=
  foldContents_of_le h ()

theorem copy_of_error {e : Error} (hlt : pos < entry.size.toNat)
    (h : (v.read entry pos (min (entry.size.toNat - pos) chunkSize)).result = .error e) :
    (v.copy entry pos).result = .error e ∧ (v.copy entry pos).output = [] := by
  rw [copy, foldContents_of_lt hlt, Run.output_bind_of_error h]
  exact ⟨Run.result_bind_of_error h _, (reads_read v entry pos _).output_eq_nil⟩

theorem copy_of_ok {bytes : Bytes} (hlt : pos < entry.size.toNat)
    (h : (v.read entry pos (min (entry.size.toNat - pos) chunkSize)).result = .ok bytes) :
    let rest := v.copy entry (pos + min (entry.size.toNat - pos) chunkSize)
    (v.copy entry pos).result = rest.result ∧
      (v.copy entry pos).output = bytes ++ rest.output := by
  intro rest
  have hwrite : (Run.write bytes).result = .ok () := rfl
  rw [copy, foldContents_of_lt hlt, Run.output_bind_of_ok h,
    (reads_read v entry pos _).output_eq_nil, List.nil_append, Run.output_bind_of_ok hwrite]
  refine ⟨(Run.result_bind_of_ok h _).trans (Run.result_bind_of_ok hwrite _), ?_⟩
  rw [Run.write, Run.act, Run.output, List.flatMap_singleton]
  rfl

end Copy

/-- A copy of the contents from byte `pos` on has come to an end at the chunk with
this index: all bytes before that chunk are written, and none behind; and the
chunk cannot be read. -/
structure BreaksOff (v : Volume) (entry : Entry) (pos : Nat) (output : Bytes) (chunk : Nat)
    (e : Error) : Prop where
  lt_size : pos + chunk * chunkSize < entry.size.toNat
  length_eq : output.length = chunk * chunkSize
  byte?_eq : ∀ i < chunk * chunkSize,
    entry.dataFork.byte? v.device (pos + i) = output[i]?
  failed : (v.read entry (pos + chunk * chunkSize)
    (min (entry.size.toNat - (pos + chunk * chunkSize)) chunkSize)).result = .error e

theorem BreaksOff.first {pos : Nat} {e : Error} (hlt : pos < entry.size.toNat)
    (h : (v.read entry pos (min (entry.size.toNat - pos) chunkSize)).result = .error e) :
    BreaksOff v entry pos [] 0 e := by
  have hstart : pos + 0 * chunkSize = pos := by omega
  refine ⟨hstart.symm ▸ hlt, (Nat.zero_mul _).symm, fun i hi => ?_, hstart.symm ▸ h⟩
  rw [Nat.zero_mul] at hi
  cases hi

/-- A full chunk that was written comes in front of what is written behind it. -/
theorem BreaksOff.cons {pos chunk : Nat} {bytes output : Bytes} {e : Error}
    (hbytes : (v.read entry pos chunkSize).result = .ok bytes)
    (h : BreaksOff v entry (pos + chunkSize) output chunk e) :
    BreaksOff v entry pos (bytes ++ output) (chunk + 1) e := by
  obtain ⟨hlength, hplaces⟩ := bytes_of_read hbytes
  have hstart : pos + (chunk + 1) * chunkSize = pos + chunkSize + chunk * chunkSize := by
    rw [Nat.succ_mul]
    omega
  refine ⟨hstart ▸ h.lt_size, ?_, fun i hi => ?_, hstart ▸ h.failed⟩
  · rw [List.length_append, hlength, h.length_eq, Nat.succ_mul]
    omega
  · rcases Nat.lt_or_ge i chunkSize with hin | hout
    · rw [List.getElem?_append_left (by omega), hplaces i hin]
    · have hplace : pos + i = pos + chunkSize + (i - chunkSize) := by omega
      rw [Nat.succ_mul] at hi
      rw [List.getElem?_append_right (by omega), hlength, hplace, h.byte?_eq _ (by omega)]

theorem exists_breaksOff {pos : Nat} {e : Error} (h : (v.copy entry pos).result = .error e) :
    ∃ chunk, BreaksOff v entry pos (v.copy entry pos).output chunk e := by
  induction hleft : entry.size.toNat - pos using Nat.strongRecOn generalizing pos with
  | ind left ih =>
    subst hleft
    have hpos : 0 < chunkSize := by decide
    rcases Nat.lt_or_ge pos entry.size.toNat with hlt | hge
    · cases hread : (v.read entry pos (min (entry.size.toNat - pos) chunkSize)).result with
      | error e' =>
        obtain ⟨hresult, houtput⟩ := copy_of_error hlt hread
        cases h.symm.trans hresult
        exact ⟨0, houtput ▸ .first hlt hread⟩
      | ok bytes =>
        obtain ⟨hresult, houtput⟩ := copy_of_ok hlt hread
        obtain ⟨chunk, hchunk⟩ := ih _ (by omega) (hresult ▸ h) rfl
        -- Something is left behind this chunk, so it is a full one.
        have hfull : min (entry.size.toNat - pos) chunkSize = chunkSize := by
          have := hchunk.lt_size
          omega
        rw [hfull] at hread hchunk houtput
        exact ⟨chunk + 1, houtput ▸ .cons hread hchunk⟩
    · rw [copy_of_le v hge] at h
      cases h

end Volume

/-! ## The commands -/

namespace Command

theorem holdsBack_runOn (v : Volume) {command : Command}
    (h : ∀ path, command ≠ .cat path) : (command.runOn v).HoldsBack := by
  cases command with
  | info => exact .printLines _
  | ls path =>
    refine .bind (Volume.output_lookupPath v path) fun folder _ => ?_
    split
    · exact .bind (Volume.output_entries v folder) fun entries _ => .printLines _
    · exact .fail _
  | stat path => exact .bind (Volume.output_lookupPath v path) fun entry _ => .printLines _
  | readlink path =>
    exact .bind (Volume.output_lookupPath v path) fun entry _ =>
      .bind (Volume.reads_readLink v entry).output_eq_nil fun target _ => .printLines _
  | cat path => exact absurd rfl (h path)
  | sha256 path =>
    exact .bind (Volume.output_lookupPath v path) fun entry _ =>
      .bind (Volume.output_foldContents fun _ _ => rfl) fun chunks _ => .printLines _

theorem runOn_cat {v : Volume} {path : String} {entry : Entry}
    (h : (v.lookupPath path).result = .ok entry) :
    ((Command.cat path).runOn v).result = (v.copy entry 0).result ∧
      ((Command.cat path).runOn v).output = (v.copy entry 0).output := by
  rw [runOn, Run.result_bind_of_ok h, Run.output_bind_of_ok h, Volume.output_lookupPath,
    List.nil_append]
  exact ⟨rfl, rfl⟩

theorem run_of_mount {image : Array UInt8} {v : Volume}
    (h : (Volume.mount (.ofImage image)).result = .ok v) (command : Command) :
    (command.run image).result = (command.runOn v).result ∧
      (command.run image).output = (command.runOn v).output := by
  rw [run, Run.result_bind_of_ok h, Run.output_bind_of_ok h, Volume.output_mount,
    List.nil_append]
  exact ⟨rfl, rfl⟩

theorem holdsBack_run (image : Array UInt8) {command : Command}
    (h : ∀ path, command ≠ .cat path) : (command.run image).HoldsBack :=
  .bind (Volume.output_mount _) fun v _ => holdsBack_runOn v h

end Command

namespace Invocation

variable {invocation : Invocation} {image : Array UInt8}

theorem exitCode_eq_one_iff : (invocation.outcome image).exitCode = 1 ↔
    ∃ e, (invocation.command.run image).result = .error e := by
  rw [outcome, Outcome.ofRun]
  cases hresult : (invocation.command.run image).result with
  | error e => exact iff_of_true rfl ⟨e, rfl⟩
  | ok _ => exact iff_of_false (by simp) (by simp)

/-- A command that ends in an error has written nothing, unless it copies contents.
A copy has written nothing if it comes to no entry to copy. Otherwise it has written
the chunks of the contents in front of the one that it could not read. -/
theorem output_of_error (h : (invocation.outcome image).exitCode = 1) :
    ((∀ path, invocation.command ≠ .cat path) → (invocation.outcome image).output = []) ∧
    ∀ path, invocation.command = .cat path →
      (∀ e, (Volume.mount (.ofImage image)).result = .error e →
        (invocation.outcome image).output = []) ∧
      ∀ v, (Volume.mount (.ofImage image)).result = .ok v →
        (∀ e, (v.lookupPath path).result = .error e →
          (invocation.outcome image).output = []) ∧
        ∀ entry, (v.lookupPath path).result = .ok entry →
          ∃ chunk e, (invocation.outcome image).error? = some e ∧
            v.BreaksOff entry 0 (invocation.outcome image).output chunk e := by
  obtain ⟨e, he⟩ := exitCode_eq_one_iff.mp h
  have houtput : (invocation.outcome image).output = (invocation.command.run image).output := rfl
  have herror : (invocation.outcome image).error? = some e := by
    rw [outcome, Outcome.ofRun, he]
  refine ⟨fun hcommand => Command.holdsBack_run image hcommand e he, fun path hcommand => ?_⟩
  rw [houtput, herror]
  rw [hcommand] at he ⊢
  refine ⟨fun e' hmount => ?_, fun v hmount => ?_⟩
  · rw [Command.run, Run.output_bind_of_error hmount, Volume.output_mount]
  · obtain ⟨hresult, houtput⟩ := Command.run_of_mount hmount (.cat path)
    rw [hresult] at he
    rw [houtput]
    refine ⟨fun e' hlookup => ?_, fun entry hlookup => ?_⟩
    · rw [Command.runOn, Run.output_bind_of_error hlookup, Volume.output_lookupPath]
    · obtain ⟨hresult, houtput⟩ := Command.runOn_cat hlookup
      rw [hresult] at he
      rw [houtput]
      obtain ⟨chunk, hchunk⟩ := Volume.exists_breaksOff he
      exact ⟨chunk, e, rfl, hchunk⟩

end Invocation

/-! ### A sample

The link of `linkVolume`, on its image of sixteen blocks. Each of its eight extents
takes all of them, so a chunk can be read, and one byte is left that cannot. -/

namespace Volume

def linkImage : Array UInt8 := linkContents.image

def copyLink : Invocation := ⟨0, "disk.img", .cat "/l"⟩

theorem linkVolume_mounted : (mount (.ofImage linkImage)).result = .ok linkVolume :=
  linkContents.result_mount

theorem isComponent_l : IsComponent "l" := ⟨by decide, by decide⟩

theorem linkVolume_lookupPath : (linkVolume.lookupPath "/l").result = .ok linkEntry :=
  (linkVolume.result_lookupPath_of_component (.slash .empty (.name isComponent_l))).trans
    linkVolume_lookup

theorem read_linkEntry (pos len : Nat) : linkVolume.read linkEntry pos len =
    linkEntry.dataFork.readAt ((Device.ofImage linkImage).withBlockSize 512) pos len :=
  read_of_file _ (by decide) pos len

theorem linkImage_all : ∀ block ∈ Fork.blocksOf 512 0 65536,
    Fork.imageFailure? linkImage 512 linkEntry.dataFork block = none := by
  decide +kernel

theorem linkImage_chunk :
    ∃ bytes, (linkVolume.read linkEntry 0 65536).result = .ok bytes := by
  obtain ⟨hread, -⟩ := @Fork.readAt_of_all linkImage 512 linkEntry.dataFork 0 65536
    (by decide) (by decide) linkImage_all
  rw [read_linkEntry]
  exact hread

theorem linkImage_rest :
    (linkVolume.read linkEntry 65536 1).result = .error (.unsupported .overflowExtents) := by
  have hlast : Fork.imageFailure? linkImage 512 linkEntry.dataFork 128 =
      some (.unsupported .overflowExtents) := by
    decide
  obtain ⟨hread, -⟩ := @Fork.readAt_of_first linkImage 512 linkEntry.dataFork 65536 1
    (by decide) (by decide) [] [] 128 _ rfl (by simp) hlast
  rw [read_linkEntry]
  exact hread

theorem linkImage_copy : (linkVolume.copy linkEntry 0).result =
    .error (.unsupported .overflowExtents) := by
  obtain ⟨bytes, hbytes⟩ := linkImage_chunk
  have hfirst : min (linkEntry.size.toNat - 0) chunkSize = 65536 := by decide
  have hrest : min (linkEntry.size.toNat - (0 + 65536)) chunkSize = 1 := by decide
  obtain ⟨hcopy, -⟩ := @copy_of_ok linkVolume linkEntry 0 bytes (by decide)
    (by rw [hfirst, hbytes])
  obtain ⟨hbreak, -⟩ := @copy_of_error linkVolume linkEntry (0 + 65536) _ (by decide)
    (by rw [hrest, Nat.zero_add, linkImage_rest])
  rw [hcopy, hfirst, hbreak]

theorem copyLink_exitCode : (copyLink.outcome linkImage).exitCode = 1 := by
  obtain ⟨hmounted, -⟩ := Command.run_of_mount linkVolume_mounted copyLink.command
  obtain ⟨hcopy, -⟩ := Command.runOn_cat linkVolume_lookupPath
  exact Invocation.exitCode_eq_one_iff.mpr ⟨_, hmounted.trans (hcopy.trans linkImage_copy)⟩

/-- One chunk is written, and not the byte behind it. -/
theorem copyLink_breaksOff :
    (copyLink.outcome linkImage).exitCode = 1 ∧
    (copyLink.outcome linkImage).output.length = 65536 ∧
    ∀ i < 65536, linkEntry.dataFork.byte? linkVolume.device i =
      (copyLink.outcome linkImage).output[i]? := by
  obtain ⟨-, hcopy⟩ := Invocation.output_of_error copyLink_exitCode
  obtain ⟨-, hmounted⟩ := hcopy "/l" rfl
  obtain ⟨-, hfound⟩ := hmounted _ linkVolume_mounted
  obtain ⟨chunk, e, -, hchunk⟩ := hfound _ linkVolume_lookupPath
  have hlt := hchunk.lt_size
  have hfailed := hchunk.failed
  have hsize : linkEntry.size.toNat = 65537 := by decide
  have hchunkSize : chunkSize = 65536 := rfl
  rw [hsize, hchunkSize] at hlt hfailed
  have hone : chunk = 1 := by
    rcases Nat.eq_zero_or_pos chunk with rfl | hpos
    · -- The first chunk can be read.
      obtain ⟨bytes, hbytes⟩ := linkImage_chunk
      have hfirst : min (65537 - (0 + 0 * 65536)) 65536 = 65536 := by decide
      rw [hfirst, Nat.zero_mul, Nat.add_zero, hbytes] at hfailed
      cases hfailed
    · omega
  subst hone
  refine ⟨copyLink_exitCode, hchunk.length_eq, fun i hi => ?_⟩
  rw [← hchunk.byte?_eq i hi, Nat.zero_add]

end Volume

end HfsPlus
