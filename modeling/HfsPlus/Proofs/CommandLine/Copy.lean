import HfsPlus.Proofs.CommandLine.Output
import HfsPlus.Proofs.Fork.FirstFailure

/-!
# Contents in chunks

The commands that need all of a file's contents go through them a chunk at a
time, and a chunk knows nothing of blocks: it may begin in the middle of one, or
be a part of one. What comes out is nevertheless what one read of the whole
gives, cut up (`inChunks`).

The reason is that a read can be made in parts. As long as bytes can be read at
once, going through them is going through their chunks
(`sameOutput_foldContents`). If the whole cannot be read, it has a first block
that cannot, and this is applied to the chunks that end in front of that block;
the next chunk runs into it.
-/

namespace HfsPlus

namespace Run

variable {α β : Type} {r r' r'' : Run α}

/-- The runs end alike and write the same. -/
structure SameOutput (r r' : Run α) : Prop where
  result_eq : r.result = r'.result
  output_eq : r.output = r'.output

namespace SameOutput

theorem refl (r : Run α) : SameOutput r r := ⟨rfl, rfl⟩

theorem trans (h : SameOutput r r') (h' : SameOutput r' r'') : SameOutput r r'' :=
  ⟨h.result_eq.trans h'.result_eq, h.output_eq.trans h'.output_eq⟩

theorem bind (r : Run α) {next next' : α → Run β}
    (h : ∀ a, SameOutput (next a) (next' a)) : SameOutput (r >>= next) (r >>= next') := by
  cases hr : r.result with
  | error e =>
    refine ⟨?_, ?_⟩
    · rw [result_bind_of_error hr, result_bind_of_error hr]
    · rw [output_bind_of_error hr, output_bind_of_error hr]
  | ok a =>
    refine ⟨?_, ?_⟩
    · rw [result_bind_of_ok hr, result_bind_of_ok hr, (h a).result_eq]
    · rw [output_bind_of_ok hr, output_bind_of_ok hr, (h a).output_eq]

/-- What is done in silence and succeeds can be left out. -/
theorem of_silent (hsilent : r.output = []) {a : α} (h : r.result = .ok a)
    (next : α → Run β) : SameOutput (r >>= next) (next a) := by
  refine ⟨result_bind_of_ok h next, ?_⟩
  rw [output_bind_of_ok h, hsilent, List.nil_append]

theorem of_silent_error (hsilent : r.output = []) {e : Error} (h : r.result = .error e)
    (next : α → Run β) : SameOutput (r >>= next) (Run.fail e) :=
  ⟨result_bind_of_error h next, (output_bind_of_error h next).trans hsilent⟩

end SameOutput

theorem foldlM_write (chunks : List Bytes) :
    let r := chunks.foldlM (fun _ chunk => Run.write chunk) ()
    r.result = .ok () ∧ r.output = chunks.flatten := by
  induction chunks with
  | nil => exact ⟨rfl, rfl⟩
  | cons chunk chunks ih =>
    have hwrite : (Run.write chunk).result = .ok () := rfl
    have houtput : (Run.write chunk).output = chunk := List.append_nil chunk
    simp only [List.foldlM_cons]
    rw [result_bind_of_ok hwrite, output_bind_of_ok hwrite, houtput, List.flatten_cons, ih.2]
    exact ⟨ih.1, rfl⟩

end Run

namespace Volume

variable {v : Volume} {entry : Entry} {pos len : Nat} {bytes : Bytes} {e : Error}

/-! ## Chunks of a byte string -/

/-- The bytes in chunks, each of them full but for the last one. -/
def inChunks (bytes : Bytes) : List Bytes :=
  if bytes.length = 0 then
    []
  else
    bytes.take chunkSize :: inChunks (bytes.drop chunkSize)
termination_by bytes.length
decreasing_by
  have : 0 < chunkSize := by decide
  rw [List.length_drop]
  omega

theorem flatten_inChunks (bytes : Bytes) : (inChunks bytes).flatten = bytes := by
  fun_induction inChunks bytes with
  | case1 bytes hnone => exact (List.length_eq_zero_iff.mp hnone).symm
  | case2 bytes _ ih => rw [List.flatten_cons, ih, List.take_append_drop]

theorem length_of_mem_inChunks (h : chunkSize ∣ bytes.length) :
    ∀ chunk ∈ inChunks bytes, chunk.length = chunkSize := by
  fun_induction inChunks bytes with
  | case1 bytes hnone => simp
  | case2 bytes hsome ih =>
    have hfull : chunkSize ≤ bytes.length := Nat.le_of_dvd (Nat.pos_of_ne_zero hsome) h
    refine List.forall_mem_cons.mpr ⟨?_, ih ?_⟩
    · rw [List.length_take, Nat.min_eq_left hfull]
    · rw [List.length_drop]
      exact Nat.dvd_sub h (Nat.dvd_refl _)

/-! ## Going through the contents -/

theorem end_le_of_read (h : (v.read entry pos len).result = .ok bytes) (hlen : len ≠ 0) :
    pos + len ≤ entry.size.toNat := by
  rw [read] at h
  split at h
  · cases h
  · have hfits : len ≤ entry.size.toNat - pos := Fork.le_of_readAt h
    omega

/-- What can be read at once can be read in two parts. -/
theorem read_split (hsize : 0 < v.device.blockSize.toNat)
    (h : (v.read entry pos bytes.length).result = .ok bytes) (n : Nat) :
    (v.read entry pos (bytes.take n).length).result = .ok (bytes.take n) ∧
      (v.read entry (pos + (bytes.take n).length) (bytes.drop n).length).result =
        .ok (bytes.drop n) := by
  have hboth : (bytes.take n).length + (bytes.drop n).length = bytes.length := by
    rw [List.length_take, List.length_drop]
    omega
  simp only [read] at h ⊢
  split at h
  · cases h
  · next hfile =>
    rw [if_neg hfile, if_neg hfile]
    refine Fork.readAt_append hsize ?_
    rw [hboth, List.take_append_drop]
    exact h

section Fold

variable {σ : Type} {step : σ → Bytes → Run σ}

/-- Bytes that can be read at once are gone through in their chunks, if they end
where a chunk does. -/
theorem sameOutput_foldContents (hsize : 0 < v.device.blockSize.toNat)
    (hread : (v.read entry pos bytes.length).result = .ok bytes)
    (hends : chunkSize ∣ bytes.length ∨ entry.size.toNat = pos + bytes.length) (state : σ) :
    Run.SameOutput (v.foldContents entry step pos state)
      ((inChunks bytes).foldlM step state >>=
        v.foldContents entry step (pos + bytes.length)) := by
  fun_induction inChunks bytes generalizing pos state with
  | case1 bytes hnone =>
    rw [hnone, Nat.add_zero, List.foldlM_nil, pure_bind]
    exact .refl _
  | case2 bytes hsome ih =>
    have hfull : chunkSize ∣ bytes.length → chunkSize ≤ bytes.length :=
      Nat.le_of_dvd (Nat.pos_of_ne_zero hsome)
    obtain ⟨hchunk, hrest⟩ := read_split hsize hread chunkSize
    have hlength : (bytes.take chunkSize).length = min chunkSize bytes.length := List.length_take
    have hleft : (bytes.drop chunkSize).length = bytes.length - chunkSize := List.length_drop
    have hfits : pos + bytes.length ≤ entry.size.toNat := end_le_of_read hread hsome
    -- The first chunk is full, or it ends where the contents do.
    have hlen : min (entry.size.toNat - pos) chunkSize = (bytes.take chunkSize).length := by omega
    have hend : pos + bytes.length =
        pos + (bytes.take chunkSize).length + (bytes.drop chunkSize).length := by
      omega
    rw [foldContents_of_lt (by omega), hlen, List.foldlM_cons, bind_assoc, hend]
    refine (Run.SameOutput.of_silent (reads_read v entry pos _).output_eq_nil hchunk _).trans ?_
    refine .bind _ fun next => ih hrest ?_ next
    rcases hends with hdvd | hlast
    · exact .inl (hleft ▸ Nat.dvd_sub hdvd (Nat.dvd_refl _))
    · exact .inr (hlast.trans hend)

theorem foldContents_of_error (hlt : pos < entry.size.toNat)
    (h : (v.read entry pos (min (entry.size.toNat - pos) chunkSize)).result = .error e)
    (state : σ) : Run.SameOutput (v.foldContents entry step pos state) (Run.fail e) := by
  rw [foldContents_of_lt hlt]
  exact .of_silent_error (reads_read v entry pos _).output_eq_nil h _

end Fold

/-! ## The whole contents -/

/-- Whoever goes through the contents is given these chunks, one after another, and
then it ends like this. -/
def Passes (v : Volume) (entry : Entry) (chunks : List Bytes) (ending : Except Error Unit) :
    Prop :=
  ∀ (σ : Type) (step : σ → Bytes → Run σ) (state : σ),
    Run.SameOutput (v.foldContents entry step 0 state) (do
      let last ← chunks.foldlM step state
      Run.ofExcept ending
      return last)

theorem passes_of_read (hsize : 0 < v.device.blockSize.toNat)
    (h : (v.read entry 0 entry.size.toNat).result = .ok bytes) :
    v.Passes entry (inChunks bytes) (.ok ()) := by
  intro σ step state
  have hlength : bytes.length = entry.size.toNat := (bytes_of_read h).1
  rw [← hlength] at h
  refine (sameOutput_foldContents hsize h (.inr (by omega)) state).trans (.bind _ fun last => ?_)
  rw [foldContents_of_le (by omega)]
  exact .refl _

/-- The chunk that runs into the first block that cannot be read is not passed on, nor
is any behind it. -/
theorem passes_of_firstFailure (hsize : 0 < v.device.blockSize.toNat)
    (hfile : ¬ entry.isFolder = true) {block : Nat}
    (h : entry.dataFork.FirstFailure v.device block e) :
    ∃ front : Bytes,
      front.length = block * v.device.blockSize.toNat / chunkSize * chunkSize ∧
      (v.read entry 0 front.length).result = .ok front ∧
      v.Passes entry (inChunks front) (.error e) := by
  have hlt : block * v.device.blockSize.toNat < entry.size.toNat := h.lt_size
  have hparts := Nat.div_add_mod' (block * v.device.blockSize.toNat) chunkSize
  have hpart : block * v.device.blockSize.toNat % chunkSize < chunkSize :=
    Nat.mod_lt _ (by decide)
  obtain ⟨front, hfront⟩ : ∃ front, (entry.dataFork.readAt v.device 0
      (block * v.device.blockSize.toNat / chunkSize * chunkSize)).result = .ok front :=
    h.readAt_of_le hsize (by omega)
  have hlength := (Fork.bytes_of_readAt hfront).1
  rw [← hlength, ← read_of_file v hfile] at hfront
  refine ⟨front, hlength, hfront, fun σ step state => ?_⟩
  have hdvd : chunkSize ∣ front.length := ⟨_, hlength.trans (Nat.mul_comm _ _)⟩
  refine (sameOutput_foldContents hsize hfront (.inl hdvd) state).trans (.bind _ fun last => ?_)
  have hnext : (v.read entry (0 + front.length)
      (min (entry.size.toNat - (0 + front.length)) chunkSize)).result = .error e := by
    rw [read_of_file v hfile]
    exact h.readAt_of_lt hsize (Nat.min_le_left _ _) (by omega) (by omega)
  exact (foldContents_of_error (by omega) hnext last).trans ⟨rfl, rfl⟩

end Volume

/-! ## The commands -/

namespace Command

variable {v : Volume} {path : String} {entry : Entry} {chunks : List Bytes}
  {ending : Except Error Unit}

theorem runOn_cat_of_passes (hlookup : (v.lookupPath path).result = .ok entry)
    (h : v.Passes entry chunks ending) :
    ((Command.cat path).runOn v).result = ending ∧
      ((Command.cat path).runOn v).output = chunks.flatten := by
  obtain ⟨hresult, houtput⟩ := runOn_cat hlookup
  obtain ⟨hwritten, hchunks⟩ := Run.foldlM_write chunks
  have hcopy := h Unit (fun _ chunk => Run.write chunk) ()
  rw [hresult, houtput, Volume.copy, hcopy.result_eq, hcopy.output_eq,
    Run.result_bind_of_ok hwritten, Run.output_bind_of_ok hwritten, hchunks]
  cases ending with
  | ok _ => exact ⟨rfl, List.append_nil _⟩
  | error e => exact ⟨rfl, List.append_nil _⟩

theorem collect_of_passes (h : v.Passes entry chunks ending) :
    (v.foldContents entry (fun chunks chunk => return chunk :: chunks) 0 []).result =
      (fun _ => chunks.reverse) <$> ending := by
  rw [(h _ _ _).result_eq, List.foldlM_pure, List.foldl_flip_cons_eq_append', List.append_nil,
    pure_bind]
  cases ending <;> rfl

theorem output_printLine (line : String) :
    (Run.printLines [line]).output = (line ++ "\n").toUTF8.data.toList := by
  have hjoin : String.join ([line].map (· ++ "\n")) = line ++ "\n" := String.empty_append
  rw [Run.printLines, hjoin]
  exact List.append_nil _

/-- What is written of the digest of these bytes: a line, unless there was an error
before it. -/
def digestOutput (bytes : Bytes) (path : String) : Except Error Unit → Bytes
  | .ok _ => (s!"{Sha256.hexDigest bytes}  {path}" ++ "\n").toUTF8.data.toList
  | .error _ => []

theorem runOn_sha256_of_passes (hlookup : (v.lookupPath path).result = .ok entry)
    (h : v.Passes entry chunks ending) :
    ((Command.sha256 path).runOn v).result = ending ∧
      ((Command.sha256 path).runOn v).output = digestOutput chunks.flatten path ending := by
  have hcollect := collect_of_passes h
  have hsilent : (v.foldContents entry
      (fun (chunks : List Bytes) chunk => (return chunk :: chunks : Run _)) 0 []).output = [] :=
    Volume.output_foldContents fun _ _ => rfl
  rw [runOn, Run.result_bind_of_ok hlookup, Run.output_bind_of_ok hlookup,
    Volume.output_lookupPath, List.nil_append]
  cases ending with
  | ok _ =>
    rw [Run.result_bind_of_ok hcollect, Run.output_bind_of_ok hcollect, hsilent,
      List.reverse_reverse, List.nil_append, output_printLine, digestOutput]
    exact ⟨rfl, rfl⟩
  | error e =>
    rw [Run.result_bind_of_error hcollect, Run.output_bind_of_error hcollect, hsilent,
      digestOutput]
    exact ⟨rfl, rfl⟩

end Command

/-- The exit code and the error say that this is how it ended. -/
def Outcome.Reports (outcome : Outcome) : Except Error Unit → Prop
  | .ok _ => outcome.exitCode = 0 ∧ outcome.error? = none
  | .error e => outcome.exitCode = 1 ∧ outcome.error? = some e

theorem Outcome.reports_ofRun (verbosity : Nat) (r : Run Unit) :
    (ofRun verbosity r).Reports r.result := by
  cases h : r.result <;> simp [Reports, ofRun, h]

/-- On this image the file at this path is copied, and its digest made, with these bytes
for its contents and with this ending. -/
structure Invocation.Copies (image : Array UInt8) (path : String) (ending : Except Error Unit)
    (contents : Bytes) : Prop where
  cat : ∀ invocation : Invocation, invocation.command = .cat path →
    (invocation.outcome image).Reports ending ∧ (invocation.outcome image).output = contents
  sha256 : ∀ invocation : Invocation, invocation.command = .sha256 path →
    (invocation.outcome image).Reports ending ∧
      (invocation.outcome image).output = Command.digestOutput contents path ending

namespace Volume

variable {v : Volume} {entry : Entry}

theorem Passes.copies {image : Array UInt8} (hmount : (mount (.ofImage image)).result = .ok v)
    {path : String} (hlookup : (v.lookupPath path).result = .ok entry) {chunks : List Bytes}
    {ending : Except Error Unit} (h : v.Passes entry chunks ending) :
    Invocation.Copies image path ending chunks.flatten where
  cat := by
    intro invocation hcommand
    obtain ⟨hmounted, hwritten⟩ := Command.run_of_mount hmount (.cat path)
    obtain ⟨hresult, houtput⟩ := Command.runOn_cat_of_passes hlookup h
    rw [Invocation.outcome, hcommand, ← hmounted.trans hresult, ← hwritten.trans houtput]
    exact ⟨Outcome.reports_ofRun _ _, rfl⟩
  sha256 := by
    intro invocation hcommand
    obtain ⟨hmounted, hwritten⟩ := Command.run_of_mount hmount (.sha256 path)
    obtain ⟨hresult, houtput⟩ := Command.runOn_sha256_of_passes hlookup h
    rw [Invocation.outcome, hcommand, ← hwritten.trans houtput]
    exact ⟨hmounted.trans hresult ▸ Outcome.reports_ofRun _ _, rfl⟩

/-- If a file can be read at once, going through it passes on the same bytes, chunk by
chunk, and each byte once. If it cannot, it has a first block that cannot be read, and
the error is that block's. It is met again behind the chunks that end where that block
begins or before, all of them full, and no others are passed on. The copy writes what
is passed on; the digest is that of the whole file, and it is written or nothing is. -/
theorem copies_contents {dev : Device} (hmount : (mount dev).result = .ok v)
    (hfile : ¬ entry.isFolder = true) :
    (∀ bytes, (v.read entry 0 entry.size.toNat).result = .ok bytes →
      (inChunks bytes).flatten = bytes ∧ v.Passes entry (inChunks bytes) (.ok ()) ∧
      ∀ image path, dev = .ofImage image → (v.lookupPath path).result = .ok entry →
        Invocation.Copies image path (.ok ()) bytes) ∧
    ∀ e, (v.read entry 0 entry.size.toNat).result = .error e →
      ∃ block front, entry.dataFork.FirstFailure v.device block e ∧
        front.length = block * v.device.blockSize.toNat / chunkSize * chunkSize ∧
        (v.read entry 0 front.length).result = .ok front ∧
        (inChunks front).flatten = front ∧
        (∀ chunk ∈ inChunks front, chunk.length = chunkSize) ∧
        v.Passes entry (inChunks front) (.error e) ∧
        ∀ image path, dev = .ofImage image → (v.lookupPath path).result = .ok entry →
          Invocation.Copies image path (.error e) front := by
  have hsize : 0 < v.device.blockSize.toNat :=
    Nat.lt_of_lt_of_le (by decide) (le_blockSize_of_mount hmount)
  refine ⟨fun bytes h => ?_, fun e h => ?_⟩
  · have hpasses := passes_of_read hsize h
    have hflatten := flatten_inChunks bytes
    refine ⟨hflatten, hpasses, ?_⟩
    rintro image path rfl hlookup
    exact hflatten ▸ hpasses.copies hmount hlookup
  · rw [read_of_file v hfile] at h
    obtain ⟨block, hfirst⟩ := Fork.exists_firstFailure hsize h
    obtain ⟨front, hlength, hfront, hpasses⟩ := passes_of_firstFailure hsize hfile hfirst
    have hflatten := flatten_inChunks front
    have hfull := length_of_mem_inChunks ⟨_, hlength.trans (Nat.mul_comm _ _)⟩
    refine ⟨block, front, hfirst, hlength, hfront, hflatten, hfull, hpasses, ?_⟩
    rintro image path rfl hlookup
    exact hflatten ▸ hpasses.copies hmount hlookup

/-! ### A sample

The link on `linkImage`, which has no place for its last byte, and the same link with
extents of twenty blocks, on an image that has as many. -/

def wholeRecord : FileRecord :=
  { linkRecord with dataFork := ⟨65537, 0, 129, .replicate 8 ⟨0, 20⟩⟩ }

def wholeContents : VolumeContents where
  leaf := fileLeaf wholeRecord
  rows := [⟨⟨2, [0x6C]⟩, .file wholeRecord⟩]
  behind := VolumeContents.zeros 7680
  kind_leaf := rfl
  forwardLink_leaf := rfl
  length_leaf := by decide +kernel
  reads := by decide +kernel
  ascending := by decide
  rows_ne_nil := by decide

def wholeImage : Array UInt8 := wholeContents.image

def wholeVolume : Volume := wholeContents.volume

def wholeEntry : Entry := .ofFile 2 [0x6C] wholeRecord

theorem wholeVolume_mounted : (mount (.ofImage wholeImage)).result = .ok wholeVolume :=
  wholeContents.result_mount

theorem wholeVolume_lookupPath : (wholeVolume.lookupPath "/l").result = .ok wholeEntry :=
  (wholeVolume.result_lookupPath_of_component (.slash .empty (.name isComponent_l))).trans
    (wholeContents.hasRows.result_lookup (by decide) .root [0x6C])

theorem wholeImage_whole :
    ∃ bytes, (wholeVolume.read wholeEntry 0 65537).result = .ok bytes := by
  obtain ⟨hread, -⟩ := @Fork.readAt_of_all wholeImage 512 wholeEntry.dataFork 0 65537
    (by decide) (by decide) (by decide +kernel)
  rw [read_of_file _ (by decide)]
  exact hread

theorem linkImage_whole : (linkVolume.read linkEntry 0 65537).result =
    .error (.unsupported .overflowExtents) := by
  have hblocks : Fork.blocksOf 512 0 65537 = Fork.blocksOf 512 0 65536 ++ [128] := by
    decide +kernel
  have hlast : Fork.imageFailure? linkImage 512 linkEntry.dataFork 128 =
      some (.unsupported .overflowExtents) := by
    decide
  obtain ⟨hread, -⟩ := @Fork.readAt_of_first linkImage 512 linkEntry.dataFork 0 65537
    (by decide) (by decide) _ [] 128 _ hblocks linkImage_all hlast
  rw [read_linkEntry]
  exact hread

theorem link_copies_contents :
    (∃ bytes, (wholeVolume.read wholeEntry 0 65537).result = .ok bytes ∧
      wholeVolume.Passes wholeEntry (inChunks bytes) (.ok ()) ∧
      Invocation.Copies wholeImage "/l" (.ok ()) bytes) ∧
    ∃ front, (linkVolume.read linkEntry 0 65536).result = .ok front ∧
      Invocation.Copies linkImage "/l" (.error (.unsupported .overflowExtents)) front := by
  obtain ⟨bytes, hbytes⟩ := wholeImage_whole
  obtain ⟨hwhole, -⟩ := @copies_contents _ wholeEntry _ wholeVolume_mounted (by decide)
  obtain ⟨-, hpasses, hcopied⟩ := hwhole bytes hbytes
  obtain ⟨-, hbroken⟩ := @copies_contents _ linkEntry _ linkVolume_mounted (by decide)
  obtain ⟨block, front, hfirst, hlength, hfront, -, -, -, hcopies⟩ := hbroken _ linkImage_whole
  have hblockSize : linkVolume.device.blockSize.toNat = 512 := rfl
  have hlt : block * linkVolume.device.blockSize.toNat < 65537 := hfirst.lt_size
  have hchunkSize : chunkSize = 65536 := rfl
  -- The first chunk can be read, so the block is the one behind it.
  have hlate : ¬ block * linkVolume.device.blockSize.toNat < 0 + 65536 := by
    intro hearly
    obtain ⟨chunk, hchunk⟩ := linkImage_chunk
    rw [read_linkEntry] at hchunk
    cases hchunk.symm.trans
      (hfirst.readAt_of_lt (by decide) (by decide) (Nat.zero_le _) hearly)
  rw [hblockSize] at hlt hlate
  have hone : front.length = 65536 := by
    rw [hlength, hblockSize, hchunkSize]
    omega
  rw [hone] at hfront
  exact ⟨⟨bytes, hbytes, hpasses, hcopied _ _ rfl wholeVolume_lookupPath⟩,
    front, hfront, hcopies _ _ rfl linkVolume_lookupPath⟩

end Volume

end HfsPlus
