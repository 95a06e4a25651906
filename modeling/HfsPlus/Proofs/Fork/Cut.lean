import HfsPlus.Proofs.Fork.Blocks
import HfsPlus.Proofs.Fork.Contents

/-!
# A read is cut out of whole blocks

A read goes from block to block and takes from each the part that it needs. It
could as well borrow the blocks that its range touches, one after another, and
cut its bytes out of them when it has them all: the same blocks are asked for,
in the same order, and the same error ends it at the same block. That is
`readBlocks_eq_cut`, an equation between runs, and the one place where the
arithmetic of blocks is done.

What a read asks for is then what a sequence of blocks asks for, and how it
fails is how the first block fails that cannot be had. The bytes that it gives
are those of `Fork.byte?` (`result_readBlocks_eq_ok_iff`).
-/

namespace HfsPlus

/-! ## One run for each element of a list -/

namespace Run

variable {α β : Type} {f : α → Run β} {l before : List α} {a : α} {e : Error}

theorem mapM_of_ok (h : ∀ a ∈ l, ∃ b, (f a).result = .ok b) :
    (∃ bs, (l.mapM f).result = .ok bs) ∧
      (l.mapM f).requests = l.flatMap fun a => (f a).requests := by
  induction l with
  | nil => exact ⟨⟨[], rfl⟩, rfl⟩
  | cons a l ih =>
    obtain ⟨⟨b, hb⟩, hrest⟩ := List.forall_mem_cons.mp h
    obtain ⟨⟨bs, hbs⟩, hrequests⟩ := ih hrest
    rw [List.mapM_cons, result_bind_of_ok hb, requests_bind_of_ok hb, result_bind_of_ok hbs,
      requests_bind_of_quiet fun _ => rfl, hrequests, List.flatMap_cons]
    exact ⟨⟨b :: bs, rfl⟩, rfl⟩

/-- Behind the first that fails none is begun. -/
theorem mapM_of_error (hbefore : ∀ a ∈ before, ∃ b, (f a).result = .ok b)
    (h : (f a).result = .error e) (after : List α) :
    ((before ++ a :: after).mapM f).result = .error e ∧
      ((before ++ a :: after).mapM f).requests =
        before.flatMap (fun a => (f a).requests) ++ (f a).requests := by
  induction before with
  | nil =>
    rw [List.nil_append, List.mapM_cons, result_bind_of_error h, requests_bind_of_error h]
    exact ⟨rfl, rfl⟩
  | cons first before ih =>
    obtain ⟨⟨b, hb⟩, hrest⟩ := List.forall_mem_cons.mp hbefore
    obtain ⟨hresult, hrequests⟩ := ih hrest
    rw [List.cons_append, List.mapM_cons, result_bind_of_ok hb, requests_bind_of_ok hb,
      result_bind_of_error hresult, requests_bind_of_error hresult, hrequests,
      List.flatMap_cons, List.append_assoc]
    exact ⟨rfl, rfl⟩

/-- Each of them succeeds, or there is a first that fails. -/
theorem forall_ok_or_exists_first (f : α → Run β) (l : List α) :
    (∀ a ∈ l, ∃ b, (f a).result = .ok b) ∨
      ∃ before a after e, l = before ++ a :: after ∧
        (∀ a ∈ before, ∃ b, (f a).result = .ok b) ∧ (f a).result = .error e := by
  induction l with
  | nil => exact .inl (by simp)
  | cons first l ih =>
    cases hfirst : (f first).result with
    | error e => exact .inr ⟨[], first, l, e, rfl, by simp, hfirst⟩
    | ok b =>
      rcases ih with hall | ⟨before, a, after, e, rfl, hbefore, ha⟩
      · exact .inl (List.forall_mem_cons.mpr ⟨⟨b, hfirst⟩, hall⟩)
      · exact .inr ⟨first :: before, a, after, e, rfl,
          List.forall_mem_cons.mpr ⟨⟨b, hfirst⟩, hbefore⟩, ha⟩

end Run

namespace Fork

variable {dev : Device} {fork : Fork} {pos len : Nat}

/-! ## One block -/

/-- The physical block in which a block of the fork lies. -/
def locate (fork : Fork) (block : Nat) : Except Error Nat :=
  if UInt32.size ≤ block then .error .notFound
  else (·.physicalStart.toNat) <$> fork.extents.resolve (UInt32.ofNat block)

/-- Reads a block of the fork. -/
def readBlock (dev : Device) (fork : Fork) (block : Nat) : Run Bytes :=
  if UInt32.size ≤ block then
    Run.fail .notFound
  else do
    let extent ← fork.resolve (UInt32.ofNat block)
    dev.block extent.physicalStart.toNat

theorem result_readBlock (dev : Device) (fork : Fork) (block : Nat) :
    (fork.readBlock dev block).result =
      fork.locate block >>= fun found => (dev.block found).result := by
  rw [readBlock, locate]
  split
  · rfl
  · rw [Run.result_bind, result_resolve]
    cases fork.extents.resolve (UInt32.ofNat block) <;> rfl

theorem requests_readBlock (dev : Device) (fork : Fork) (block : Nat) :
    (fork.readBlock dev block).requests = (fork.locate block).toOption.toList := by
  rw [readBlock, locate]
  split
  · rfl
  · have hresult := result_resolve fork (UInt32.ofNat block)
    cases hresolve : fork.extents.resolve (UInt32.ofNat block) with
    | error e =>
      rw [Run.requests_bind_of_error (hresult.trans hresolve), requests_resolve]
      rfl
    | ok extent =>
      rw [Run.requests_bind_of_ok (hresult.trans hresolve), requests_resolve,
        Device.block, Run.requests_withBlock]
      rfl

theorem length_of_readBlock {block : Nat} {data : Bytes}
    (h : (fork.readBlock dev block).result = .ok data) : dev.blockSize.toNat ≤ data.length := by
  rw [result_readBlock] at h
  obtain ⟨found, -, hdata⟩ := exists_of_bind_eq_ok h
  exact Device.length_of_block hdata

/-- The bytes of a block of the fork are those of the block that it lies in. -/
theorem byte?_of_readBlock {data : Bytes}
    (h : (fork.readBlock dev (pos / dev.blockSize.toNat)).result = .ok data) :
    fork.byte? dev pos = data[pos % dev.blockSize.toNat]? := by
  rw [result_readBlock, locate] at h
  split at h
  · cases h
  · next hblock =>
    obtain ⟨found, hfound, hdata⟩ := exists_of_bind_eq_ok h
    obtain ⟨extent, hextent, rfl⟩ := map_eq_ok_iff.mp hfound
    exact byte?_of_block (Nat.not_le.mp hblock) hextent hdata rfl

/-! ## The blocks of a range -/

/-- The blocks of `size` bytes that hold some of the `len` bytes from `pos` on, in
order. -/
def blocksOf (size pos len : Nat) : List Nat :=
  if len = 0 then []
  else List.range' (pos / size) ((pos + len - 1) / size + 1 - pos / size)

/-- What the blocks of a range have of it. -/
def cut (size pos len : Nat) (blocks : List Bytes) : Bytes :=
  ((blocks.flatMap (·.take size)).drop (pos % size)).take len

section Arithmetic

variable {size : Nat}

theorem mem_blocksOf {block : Nat} (h : block ∈ blocksOf size pos len) :
    block * size < pos + len := by
  rw [blocksOf] at h
  split at h
  · cases h
  · next hlen =>
    obtain ⟨hfirst, hlast⟩ := List.mem_range'_1.mp h
    have hle : block ≤ (pos + len - 1) / size := by omega
    have hstart := Nat.mul_le_mul_right size hle
    have hend := Nat.div_mul_le_self (pos + len - 1) size
    omega

/-- Behind the part in its first block a range goes on at the next block. -/
theorem blocksOf_of_ne_zero (hsize : 0 < size) (hlen : len ≠ 0) :
    let piece := min (size - pos % size) len
    blocksOf size pos len = pos / size :: blocksOf size (pos + piece) (len - piece) := by
  intro piece
  have hpiece : piece = min (size - pos % size) len := rfl
  have hpos := Nat.div_add_mod' pos size
  have hmod := Nat.mod_lt pos hsize
  rw [blocksOf, if_neg hlen]
  by_cases hrest : len - piece = 0
  · have hlast : (pos + len - 1) / size = pos / size := by
      rw [Nat.add_sub_assoc (by omega)]
      exact (div_mod_add_of_lt (by omega)).1
    have hone : pos / size + 1 - pos / size = 1 := by omega
    rw [blocksOf, if_pos hrest, hlast, hone]
    rfl
  · have hnext : (pos + piece) / size = pos / size + 1 := by
      have hstart : pos + piece = (pos / size + 1) * size := by
        rw [Nat.succ_mul]
        omega
      rw [hstart, Nat.mul_div_cancel _ hsize]
    have hend : pos + piece + (len - piece) - 1 = pos + len - 1 := by omega
    have hmore : pos / size + 1 ≤ (pos + len - 1) / size := by
      rw [← hnext]
      exact Nat.div_le_div_right (by omega)
    have hcount : (pos + len - 1) / size + 1 - pos / size =
        (pos + len - 1) / size + 1 - (pos / size + 1) + 1 := by
      omega
    rw [blocksOf, if_neg hrest, hend, hnext, hcount, List.range'_succ]

theorem cut_cons (hsize : 0 < size) {data : Bytes} (hdata : size ≤ data.length)
    (blocks : List Bytes) :
    let piece := min (size - pos % size) len
    cut size pos len (data :: blocks) =
      (data.drop (pos % size)).take piece ++ cut size (pos + piece) (len - piece) blocks := by
  intro piece
  have hpiece : piece = min (size - pos % size) len := rfl
  have hmod := Nat.mod_lt pos hsize
  have hfirst : ((data.take size).drop (pos % size)).length = size - pos % size := by
    rw [List.length_drop, List.length_take]
    omega
  rw [cut, List.flatMap_cons, List.drop_append_of_le_length (by rw [List.length_take]; omega),
    List.take_append, hfirst]
  congr 1
  · rw [List.drop_take, List.take_take, Nat.min_comm]
  · by_cases hrest : len - piece = 0
    · have hnone : len - (size - pos % size) = 0 := by omega
      rw [cut, hrest, hnone, List.take_zero, List.take_zero]
    · have hnext : (pos + piece) % size = 0 := by
        have hpos := Nat.div_add_mod' pos size
        have hstart : pos + piece = (pos / size + 1) * size := by
          rw [Nat.succ_mul]
          omega
        rw [hstart, Nat.mul_mod_left]
      have hlen : len - piece = len - (size - pos % size) := by omega
      rw [cut, hnext, List.drop_zero, hlen]

end Arithmetic

/-! ## The whole read -/

theorem readBlocks_of_ne_zero (hsize : 0 < dev.blockSize.toNat) (hlen : len ≠ 0) :
    readBlocks dev fork hsize pos len = (do
      let data ← fork.readBlock dev (pos / dev.blockSize.toNat)
      ((data.drop (pos % dev.blockSize.toNat)).take (firstPiece dev pos len) ++ ·) <$>
        readBlocks dev fork hsize (pos + firstPiece dev pos len)
          (len - firstPiece dev pos len)) := by
  rw [readBlocks, if_neg hlen, readBlock]
  simp only []
  split
  · rfl
  · rw [bind_assoc]
    congr 1
    funext extent
    rw [Device.withBlock_ok, bind_map_left]
    rfl

/-- A read is the whole blocks of its range, read one after another, and its bytes
cut out of them. -/
theorem readBlocks_eq_cut (hsize : 0 < dev.blockSize.toNat) (pos len : Nat) :
    readBlocks dev fork hsize pos len =
      cut dev.blockSize.toNat pos len <$>
        (blocksOf dev.blockSize.toNat pos len).mapM (fork.readBlock dev) := by
  induction len using Nat.strongRecOn generalizing pos with
  | ind len ih =>
    by_cases hlen : len = 0
    · subst hlen
      rw [readBlocks, if_pos rfl]
      rfl
    · have hmod := Nat.mod_lt pos hsize
      have hpiece : firstPiece dev pos len =
        min (dev.blockSize.toNat - pos % dev.blockSize.toNat) len := rfl
      rw [readBlocks_of_ne_zero hsize hlen, blocksOf_of_ne_zero hsize hlen, List.mapM_cons,
        map_bind, ← hpiece]
      refine (Run.bind_congr_of_ok fun data hdata => ?_).symm
      rw [ih _ (by omega), map_bind, ← comp_map]
      simp only [map_pure, bind_pure_comp]
      congr 1
      funext blocks
      exact cut_cons hsize (length_of_readBlock hdata) blocks

/-- A read fails as the first of its blocks does that cannot be read. -/
theorem exists_first_of_readBlocks {hsize : 0 < dev.blockSize.toNat} {e : Error}
    (h : (readBlocks dev fork hsize pos len).result = .error e) :
    ∃ before block after, blocksOf dev.blockSize.toNat pos len = before ++ block :: after ∧
      (∀ earlier ∈ before, ∃ data, (fork.readBlock dev earlier).result = .ok data) ∧
      (fork.readBlock dev block).result = .error e := by
  rw [readBlocks_eq_cut, Run.result_map] at h
  have hsequence := map_eq_error_iff.mp h
  rcases Run.forall_ok_or_exists_first (fork.readBlock dev) (blocksOf dev.blockSize.toNat pos len)
    with hall | ⟨before, block, after, e', hblocks, hbefore, hblock⟩
  · obtain ⟨⟨found, hfound⟩, -⟩ := Run.mapM_of_ok hall
    cases hsequence.symm.trans hfound
  · rw [hblocks, (Run.mapM_of_error hbefore hblock after).1] at hsequence
    cases hsequence
    exact ⟨before, block, after, hblocks, hbefore, hblock⟩

theorem exists_block_of_readBlocks {hsize : 0 < dev.blockSize.toNat} {e : Error}
    (h : (readBlocks dev fork hsize pos len).result = .error e) :
    ∃ block ∈ blocksOf dev.blockSize.toNat pos len,
      (fork.readBlock dev block).result = .error e := by
  obtain ⟨before, block, after, hblocks, -, hblock⟩ := exists_first_of_readBlocks h
  exact ⟨block, by simp [hblocks], hblock⟩

/-- A read gives the bytes of its range, all of them and in order, if it gives
anything. -/
theorem result_readBlocks_eq_ok_iff (hsize : 0 < dev.blockSize.toNat) {bytes : Bytes} :
    (readBlocks dev fork hsize pos len).result = .ok bytes ↔
      bytes.length = len ∧ ∀ i < len, fork.byte? dev (pos + i) = bytes[i]? := by
  constructor
  · intro h
    induction len using Nat.strongRecOn generalizing pos bytes with
    | ind len ih =>
      by_cases hlen : len = 0
      · subst hlen
        rw [readBlocks, if_pos rfl] at h
        cases h
        exact ⟨rfl, by simp⟩
      · have hmod := Nat.mod_lt pos hsize
        have hpiece : firstPiece dev pos len =
          min (dev.blockSize.toNat - pos % dev.blockSize.toNat) len := rfl
        rw [readBlocks_of_ne_zero hsize hlen, Run.result_bind] at h
        obtain ⟨data, hdata, h⟩ := exists_of_bind_eq_ok h
        rw [Run.result_map] at h
        obtain ⟨rest, hrest, rfl⟩ := map_eq_ok_iff.mp h
        obtain ⟨hlength, hbytes⟩ := ih _ (by omega) hrest
        have hfull := length_of_readBlock hdata
        have hfirst : ((data.drop (pos % dev.blockSize.toNat)).take
            (firstPiece dev pos len)).length = firstPiece dev pos len := by
          rw [List.length_take, List.length_drop]
          omega
        refine ⟨by rw [List.length_append, hfirst, hlength]; omega, fun i hi => ?_⟩
        by_cases hin : i < firstPiece dev pos len
        · have hblock : pos % dev.blockSize.toNat + i < dev.blockSize.toNat := by omega
          obtain ⟨hdiv, hplace⟩ := div_mod_add_of_lt hblock
          rw [List.getElem?_append_left (by omega), List.getElem?_take, if_pos hin,
            List.getElem?_drop, byte?_of_readBlock (hdiv ▸ hdata), hplace]
        · have hplace : pos + firstPiece dev pos len + (i - firstPiece dev pos len) = pos + i := by
            omega
          rw [List.getElem?_append_right (by omega), hfirst, ← hbytes _ (by omega), hplace]
  · rintro ⟨rfl, h⟩
    exact result_readBlocks_of_bytes hsize h

theorem bytes_of_readAt {bytes : Bytes} (h : (fork.readAt dev pos len).result = .ok bytes) :
    bytes.length = len ∧ ∀ i < len, fork.byte? dev (pos + i) = bytes[i]? := by
  simp only [readAt] at h
  split at h
  · cases h
  split at h
  · next hsize => exact (result_readBlocks_eq_ok_iff hsize).mp h
  · cases h

end Fork

end HfsPlus
