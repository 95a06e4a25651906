import HfsPlus.Proofs.Fork.Cut

/-!
# The bytes of a fork on an image

On an image there is a second way to say what a fork holds, and it needs no
device. The extents put each block of the fork somewhere, so each byte of the
fork is one byte of the image: `imageByte?` is its place, counted out. And what
can be wrong with a block is that the fork has no place for it, or that the
image ends before it does: `imageFailure?`.

`readAt_exact` says that a read is these two and nothing besides, down to the
blocks it asks for.
-/

namespace HfsPlus

variable {image : Array UInt8} {size : UInt32} {fork : Fork}

theorem Device.result_block_ofImage (image : Array UInt8) (hsize : size ≠ 0) {block : Nat}
    (hblock : block < UInt32.size) :
    (((ofImage image).withBlockSize size).block block).result =
      if block * size.toNat + size.toNat ≤ image.size then
        .ok (image.extract (block * size.toNat) (block * size.toNat + size.toNat)).toList
      else
        .error (.device .endOfImage) := by
  have hstart : ¬ UInt64.size ≤ block * size.toNat := by
    have hlt : block * size.toNat < UInt32.size * UInt32.size :=
      Nat.mul_lt_mul'' hblock size.toNat_lt
    have hsquare : UInt32.size * UInt32.size = UInt64.size := by decide
    omega
  rw [Device.block, withBlock]
  simp only [ofImage, withBlockSize, imageBlock]
  rw [if_neg hstart]
  by_cases hend : block * size.toNat + size.toNat ≤ image.size
  · have hin : ¬ (size ≠ 0 ∧ image.size < block * size.toNat + size.toNat) := by omega
    have hfull : ¬ (image.extract (block * size.toNat)
        (block * size.toNat + size.toNat)).toList.length < size.toNat := by
      rw [Array.length_toList, Array.size_extract]
      omega
    rw [if_neg hin, if_pos hend]
    exact if_neg hfull
  · rw [if_pos ⟨hsize, Nat.not_le.mp hend⟩, if_neg hend]

namespace Fork

/-! ## Places in the image -/

/-- The byte of the image that is the fork's byte at `pos`. -/
def imageByte? (image : Array UInt8) (size : UInt32) (fork : Fork) (pos : Nat) :
    Option UInt8 :=
  match fork.locate (pos / size.toNat) with
  | .ok found => image[found * size.toNat + pos % size.toNat]?
  | .error _ => none

/-- Why a block of the fork cannot be had from the image, if it cannot. -/
def imageFailure? (image : Array UInt8) (size : UInt32) (fork : Fork) (block : Nat) :
    Option Error :=
  match fork.locate block with
  | .ok found =>
    if found * size.toNat + size.toNat ≤ image.size then none else some (.device .endOfImage)
  | .error e => some e

theorem locate_lt {block found : Nat} (h : fork.locate block = .ok found) :
    found < UInt32.size := by
  rw [locate] at h
  split at h
  · cases h
  · obtain ⟨extent, -, rfl⟩ := map_eq_ok_iff.mp h
    exact extent.physicalStart.toNat_lt

theorem locate_of_resolve {block : Nat} {extent : Extent} (hblock : block < UInt32.size)
    (h : fork.extents.resolve (UInt32.ofNat block) = .ok extent) :
    fork.locate block = .ok extent.physicalStart.toNat := by
  rw [locate, if_neg (Nat.not_le.mpr hblock), h]
  rfl

theorem result_readBlock_eq_error_iff (hsize : size ≠ 0) {block : Nat} {e : Error} :
    (fork.readBlock ((Device.ofImage image).withBlockSize size) block).result = .error e ↔
      imageFailure? image size fork block = some e := by
  rw [result_readBlock, imageFailure?]
  cases hfound : fork.locate block with
  | error e' =>
    show (Except.error e' : Except Error Bytes) = .error e ↔ some e' = some e
    rw [Except.error.injEq, Option.some.injEq]
  | ok found =>
    show Run.result _ = .error e ↔ (if _ then _ else _) = _
    rw [Device.result_block_ofImage image hsize (locate_lt hfound)]
    split <;> simp

theorem result_readBlock_eq_ok_iff (hsize : size ≠ 0) {block : Nat} :
    (∃ data, (fork.readBlock ((Device.ofImage image).withBlockSize size) block).result =
      .ok data) ↔ imageFailure? image size fork block = none := by
  cases hresult : (fork.readBlock ((Device.ofImage image).withBlockSize size) block).result with
  | error e =>
    rw [(result_readBlock_eq_error_iff hsize).mp hresult]
    simp
  | ok data =>
    refine iff_of_true ⟨data, rfl⟩ (Option.eq_none_iff_forall_ne_some.mpr fun e hfailure => ?_)
    rw [(result_readBlock_eq_error_iff hsize).mpr hfailure] at hresult
    cases hresult

theorem imageByte?_of_byte? (hsize : size ≠ 0) {pos : Nat} {b : UInt8}
    (h : fork.byte? ((Device.ofImage image).withBlockSize size) pos = some b) :
    imageByte? image size fork pos = some b := by
  obtain ⟨hblock, extent, hextent, data, hdata⟩ := exists_block_of_byte? h
  rw [byte?_of_block hblock hextent hdata rfl] at h
  rw [Device.result_block_ofImage image hsize extent.physicalStart.toNat_lt] at hdata
  split at hdata
  · cases hdata
    rw [Array.getElem?_toList, Array.getElem?_extract] at h
    split at h
    · have hfound : fork.locate (pos / size.toNat) = .ok extent.physicalStart.toNat :=
        locate_of_resolve hblock hextent
      simp only [imageByte?, hfound]
      exact h
    · cases h
  · cases hdata

/-! ## Reads -/

theorem readAt_of_fits {dev : Device} {pos len : Nat} (hfits : len ≤ fork.size.toNat - pos)
    (hsize : 0 < dev.blockSize.toNat) :
    fork.readAt dev pos len = readBlocks dev fork hsize pos len := by
  simp only [readAt]
  rw [if_neg (Nat.not_lt.mpr hfits), dif_pos hsize]

/-- A sequence of blocks asks for one physical block for each of them. -/
theorem map_locate_of_ok {dev : Device} {blocks : List Nat}
    (h : ∀ block ∈ blocks, ∃ data, (fork.readBlock dev block).result = .ok data) :
    blocks.map fork.locate =
      (blocks.flatMap fun block => (fork.readBlock dev block).requests).map .ok := by
  induction blocks with
  | nil => rfl
  | cons block blocks ih =>
    obtain ⟨⟨data, hdata⟩, hrest⟩ := List.forall_mem_cons.mp h
    rw [result_readBlock] at hdata
    obtain ⟨found, hfound, -⟩ := exists_of_bind_eq_ok hdata
    rw [List.map_cons, List.flatMap_cons, List.map_append, ih hrest, requests_readBlock, hfound]
    rfl

section Blocks

variable {dev : Device} {pos len : Nat}

theorem readAt_eq_cut (hsize : 0 < dev.blockSize.toNat) (hfits : len ≤ fork.size.toNat - pos) :
    fork.readAt dev pos len = cut dev.blockSize.toNat pos len <$>
      (blocksOf dev.blockSize.toNat pos len).mapM (fork.readBlock dev) :=
  (readAt_of_fits hfits hsize).trans (readBlocks_eq_cut hsize pos len)

/-- A read of blocks that can all be read. -/
theorem readAt_of_readable (hsize : 0 < dev.blockSize.toNat)
    (hfits : len ≤ fork.size.toNat - pos)
    (h : ∀ block ∈ blocksOf dev.blockSize.toNat pos len,
      ∃ data, (fork.readBlock dev block).result = .ok data) :
    (∃ bytes, (fork.readAt dev pos len).result = .ok bytes) ∧
      (blocksOf dev.blockSize.toNat pos len).map fork.locate =
        (fork.readAt dev pos len).requests.map .ok := by
  obtain ⟨⟨found, hfound⟩, hrequests⟩ := Run.mapM_of_ok h
  rw [readAt_eq_cut hsize hfits, Run.result_map, Run.requests_map, hfound, hrequests]
  exact ⟨⟨_, rfl⟩, map_locate_of_ok h⟩

/-- A read that comes to a block that cannot be read. -/
theorem readAt_of_unreadable (hsize : 0 < dev.blockSize.toNat)
    (hfits : len ≤ fork.size.toNat - pos) {before after : List Nat} {block : Nat} {e : Error}
    (hblocks : blocksOf dev.blockSize.toNat pos len = before ++ block :: after)
    (hbefore : ∀ earlier ∈ before, ∃ data, (fork.readBlock dev earlier).result = .ok data)
    (hblock : (fork.readBlock dev block).result = .error e) :
    (fork.readAt dev pos len).result = .error e ∧
      ∃ fetched, before.map fork.locate = fetched.map .ok ∧
        (fork.readAt dev pos len).requests =
          fetched ++ (fork.locate block).toOption.toList := by
  obtain ⟨hresult, hrequests⟩ := Run.mapM_of_error hbefore hblock after
  rw [readAt_eq_cut hsize hfits, hblocks, Run.result_map, Run.requests_map, hresult, hrequests,
    requests_readBlock]
  exact ⟨rfl, _, map_locate_of_ok hbefore, rfl⟩

end Blocks

section Exact

variable {pos len : Nat}

theorem readAt_of_all (hsize : size ≠ 0) (hfits : len ≤ fork.size.toNat - pos)
    (h : ∀ block ∈ blocksOf size.toNat pos len, imageFailure? image size fork block = none) :
    let r := fork.readAt ((Device.ofImage image).withBlockSize size) pos len
    (∃ bytes, r.result = .ok bytes) ∧
      (blocksOf size.toNat pos len).map fork.locate = r.requests.map .ok :=
  readAt_of_readable (UInt32.pos_iff_ne_zero.mpr hsize) hfits fun block hmem =>
    (result_readBlock_eq_ok_iff hsize).mpr (h block hmem)

theorem readAt_of_first (hsize : size ≠ 0) (hfits : len ≤ fork.size.toNat - pos)
    {before after : List Nat} {block : Nat} {e : Error}
    (hblocks : blocksOf size.toNat pos len = before ++ block :: after)
    (hbefore : ∀ earlier ∈ before, imageFailure? image size fork earlier = none)
    (hblock : imageFailure? image size fork block = some e) :
    let r := fork.readAt ((Device.ofImage image).withBlockSize size) pos len
    r.result = .error e ∧ ∃ fetched, before.map fork.locate = fetched.map .ok ∧
      r.requests = fetched ++ (fork.locate block).toOption.toList :=
  readAt_of_unreadable (UInt32.pos_iff_ne_zero.mpr hsize) hfits hblocks
    (fun earlier hmem => (result_readBlock_eq_ok_iff hsize).mpr (hbefore earlier hmem))
    ((result_readBlock_eq_error_iff hsize).mpr hblock)

theorem all_of_readAt (hsize : size ≠ 0) (hfits : len ≤ fork.size.toNat - pos) {bytes : Bytes}
    (h : (fork.readAt ((Device.ofImage image).withBlockSize size) pos len).result = .ok bytes) :
    ∀ block ∈ blocksOf size.toNat pos len, imageFailure? image size fork block = none := by
  rcases Run.forall_ok_or_exists_first
      (fork.readBlock ((Device.ofImage image).withBlockSize size))
      (blocksOf size.toNat pos len) with
    hread | ⟨before, block, after, e, hblocks, hbefore, hblock⟩
  · intro block hmem
    exact (result_readBlock_eq_ok_iff hsize).mp (hread block hmem)
  · obtain ⟨herror, -⟩ := readAt_of_first hsize hfits hblocks
      (fun earlier hmem => (result_readBlock_eq_ok_iff hsize).mp (hbefore earlier hmem))
      ((result_readBlock_eq_error_iff hsize).mp hblock)
    cases h.symm.trans herror

end Exact

/-- A read past the end of the fork is short, whatever the size of a block, and one
in blocks of no bytes is damage; neither asks for a block. Any other asks for the
blocks of its range, each once and in order, up to the first that cannot be had, and
ends with that one's error; if there is none, it gives the bytes of its range. -/
theorem readAt_exact (image : Array UInt8) (size : UInt32) (fork : Fork) (pos len : Nat) :
    let r := fork.readAt ((Device.ofImage image).withBlockSize size) pos len
    let blocks := blocksOf size.toNat pos len
    (fork.size.toNat - pos < len →
      r.result = .error (.shortRead len (fork.size.toNat - pos)) ∧ r.requests = []) ∧
    (len ≤ fork.size.toNat - pos → size = 0 →
      r.result = .error (.corrupted .zeroBlockSize) ∧ r.requests = []) ∧
    (len ≤ fork.size.toNat - pos → size ≠ 0 →
      ((∃ bytes, r.result = .ok bytes) ↔
        ∀ block ∈ blocks, imageFailure? image size fork block = none) ∧
      (∀ bytes, r.result = .ok bytes →
        bytes.length = len ∧
        (∀ i < len, bytes[i]? = imageByte? image size fork (pos + i)) ∧
        blocks.map fork.locate = r.requests.map .ok) ∧
      ∀ before block after e, blocks = before ++ block :: after →
        (∀ earlier ∈ before, imageFailure? image size fork earlier = none) →
        imageFailure? image size fork block = some e →
        r.result = .error e ∧ ∃ fetched, before.map fork.locate = fetched.map .ok ∧
          r.requests = fetched ++ (fork.locate block).toOption.toList) := by
  intro r blocks
  refine ⟨fun hshort => ?_, fun hfits hzero => ?_, fun hfits hsize => ?_⟩
  · have hr : r = Run.fail (.shortRead len (fork.size.toNat - pos)) := if_pos hshort
    rw [hr]
    exact ⟨rfl, rfl⟩
  · subst hzero
    have hr : r = Run.fail (.corrupted .zeroBlockSize) := by
      show (if _ then _ else dite _ _ _) = _
      rw [if_neg (Nat.not_lt.mpr hfits)]
      rfl
    rw [hr]
    exact ⟨rfl, rfl⟩
  · have hpos : 0 < ((Device.ofImage image).withBlockSize size).blockSize.toNat :=
      UInt32.pos_iff_ne_zero.mpr hsize
    refine ⟨⟨fun ⟨bytes, hbytes⟩ => all_of_readAt hsize hfits hbytes,
        fun h => (readAt_of_all hsize hfits h).1⟩,
      fun bytes hbytes => ?_,
      fun _ _ _ _ hblocks hbefore hblock => readAt_of_first hsize hfits hblocks hbefore hblock⟩
    have hread : (readBlocks ((Device.ofImage image).withBlockSize size) fork hpos pos len).result =
        .ok bytes := by
      rw [← readAt_of_fits hfits hpos]
      exact hbytes
    obtain ⟨hlength, hplaces⟩ := (result_readBlocks_eq_ok_iff hpos).mp hread
    have hall := all_of_readAt hsize hfits hbytes
    refine ⟨hlength, fun i hi => ?_, (readAt_of_all hsize hfits hall).2⟩
    have hplace := hplaces i hi
    rw [List.getElem?_eq_getElem (hlength ▸ hi)] at hplace ⊢
    exact (imageByte?_of_byte? hsize hplace).symm

/-! ### A sample

Three blocks of four bytes, of which a fork has the last and then the first, and
claims another behind the end. -/

def numberedImage : Array UInt8 := #[0, 1, 2, 3, 4, 5, 6, 7, 8, 9, 10, 11]

def turnedFork : Fork where
  size := 12
  extents := #v[⟨2, 1⟩, ⟨0, 1⟩, ⟨3, 1⟩, .unused, .unused, .unused, .unused, .unused]

def turnedRead (len : Nat) : Run Bytes :=
  turnedFork.readAt ((Device.ofImage numberedImage).withBlockSize 4) 2 len

theorem turnedRead_exact :
    (turnedRead 5).result = .ok [10, 11, 0, 1, 2] ∧ (turnedRead 5).requests = [2, 0] ∧
    (turnedRead 9).result = .error (.device .endOfImage) ∧ (turnedRead 9).requests = [2, 0, 3] ∧
    (turnedRead 11).result = .error (.shortRead 11 10) := by
  obtain ⟨-, -, hinside⟩ := readAt_exact numberedImage 4 turnedFork 2 5
  obtain ⟨hok, hbytes, -⟩ := hinside (by decide) (by decide)
  obtain ⟨bytes, hresult⟩ := hok.mpr (by decide)
  obtain ⟨hlength, hplaces, hrequests⟩ := hbytes bytes hresult
  have heq : bytes = [10, 11, 0, 1, 2] := by
    refine List.ext_getElem? fun i => ?_
    rcases Nat.lt_or_ge i 5 with hi | hi
    · rw [hplaces i hi]
      revert i
      decide
    · rw [List.getElem?_eq_none (by omega), List.getElem?_eq_none hi]
  obtain ⟨-, -, hbehind⟩ := readAt_exact numberedImage 4 turnedFork 2 9
  obtain ⟨-, -, hfirst⟩ := hbehind (by decide) (by decide)
  obtain ⟨herror, fetched, hfetched, hasked⟩ :=
    hfirst [0, 1] 2 [] (.device .endOfImage) (by decide) (by decide) (by decide)
  obtain ⟨hshort, -, -⟩ := readAt_exact numberedImage 4 turnedFork 2 11
  have hnames : ∀ {places found : List Nat},
      found.map (Except.ok (ε := Error)) = places.map .ok → found = places :=
    fun h => (List.map_inj_right fun _ _ => Except.ok.inj).mp h
  have hstart : fetched = [2, 0] := hnames hfetched.symm
  refine ⟨heq ▸ hresult, hnames hrequests.symm, herror, ?_, (hshort (by decide)).1⟩
  rw [hstart] at hasked
  exact hasked

end Fork

end HfsPlus
