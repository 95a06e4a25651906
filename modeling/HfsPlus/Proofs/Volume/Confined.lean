import HfsPlus.Proofs.Volume.Packed
import HfsPlus.Proofs.Volume.Query

/-!
# Two images

Two images of a volume may differ anywhere. As long as both can be mounted, with
the same header and the same catalog, a client that asks about some forks can
tell them apart by the blocks of these forks only (`confined`). The images are
compared byte by byte; what a device makes of a block that lies beyond their
end depends on their length, which is taken to be the same.
-/

namespace HfsPlus

namespace Device

variable {image image' : Array UInt8} {size : UInt32} {P : Nat → Prop}

/-- Two images have the same bytes in a block of this size. -/
def SameBlock (image image' : Array UInt8) (size : UInt32) (block : Nat) : Prop :=
  ∀ i < size.toNat, image'[block * size.toNat + i]? = image[block * size.toNat + i]?

theorem imageBlock_congr (hsize : image'.size = image.size) {block : Nat}
    (h : SameBlock image image' size block) :
    imageBlock image' size block = imageBlock image size block := by
  have hbytes : image'.extract (block * size.toNat) (block * size.toNat + size.toNat) =
      image.extract (block * size.toNat) (block * size.toNat + size.toNat) := by
    refine Array.ext_getElem? fun i => ?_
    rw [Array.getElem?_extract, Array.getElem?_extract, hsize]
    split
    · exact h i (by omega)
    · rfl
  simp only [imageBlock, hsize, hbytes]

theorem agree_of_sameBlock (hsize : image'.size = image.size)
    (h : ∀ block, P block → SameBlock image image' size block) :
    Agree P ((ofImage image).withBlockSize size) ((ofImage image').withBlockSize size) where
  blockSize_eq := rfl
  fetch_eq := fun block hblock => imageBlock_congr hsize (h block hblock)

theorem sameBlock_append {front back back' : Bytes} {block : Nat}
    (h : block * size.toNat + size.toNat ≤ front.length) :
    SameBlock (front ++ back).toArray (front ++ back').toArray size block := by
  intro i hi
  have hin : block * size.toNat + i < front.length := by omega
  rw [List.getElem?_toArray, List.getElem?_toArray, List.getElem?_append_left hin,
    List.getElem?_append_left hin]

end Device

namespace Volume

/-- A query takes no block outside of the extents of the fork that it is about.
So if two images of one length are mounted to the same header and the same
catalog, and have the same bytes in all blocks with `P`, then a client that asks
about forks in these blocks has the same answers from both, and the same things
happen on the way. A cursor goes the same way on both. -/
theorem confined :
    (∀ (v : Volume) {α : Type} (q : Query α), ∀ block ∈ (q.run v).requests,
      (q.extents v).Covers block) ∧
    ∀ (image image' : Array UInt8) (v v' : Volume), image'.size = image.size →
      (mount (.ofImage image)).result = .ok v → (mount (.ofImage image')).result = .ok v' →
      v'.header = v.header → v'.catalog = v.catalog →
      ∀ P : Nat → Prop,
        (∀ block, P block → Device.SameBlock image image' v.header.blockSize block) →
        (∀ {β : Type} (plan : Plan β), plan.Within v P → plan.run v' = plan.run v) ∧
        ∀ c : Cursor, (∀ block, v.catalog.fork.extents.Covers block → P block) →
          c.next v' = c.next v := by
  refine ⟨fun v α q => (q.reads v).of_mem_requests, ?_⟩
  intro image image' v v' hsize hmount hmount' hheader hcatalog P hsame
  have hagree : Device.Agree P v.device v'.device := by
    rw [device_of_mount hmount, device_of_mount hmount', hheader]
    exact Device.agree_of_sameBlock hsize hsame
  obtain ⟨dev', header', catalog'⟩ := v'
  cases hheader
  cases hcatalog
  exact ⟨fun plan hplan => hplan.run_congr hagree,
    fun c hcovers => next_congr (hagree.mono hcovers) c⟩

/-! ### A sample

A volume whose last block belongs to no file, and is all that two images of it may
differ in. -/

/-- The root folder has one record, of a type that is not known. -/
def tinyContents (free : UInt8) : VolumeContents where
  leaf := {
    forwardLink := 0
    backwardLink := 0
    kind := .leaf
    height := 1
    reserved := 0
    records := [[0, 6, 0, 0, 0, 2, 0, 0, 0, 9]]
    free := VolumeContents.zeros 484 }
  rows := [⟨⟨2, []⟩, .unknown 9⟩]
  behind := List.replicate 512 free
  kind_leaf := rfl
  forwardLink_leaf := rfl
  length_leaf := by decide +kernel
  reads := by decide
  ascending := by decide
  rows_ne_nil := by decide

def tinyImage (free : UInt8) : Array UInt8 := (tinyContents free).image

def tinyVolume (free : UInt8) : Volume := (tinyContents free).volume

theorem size_tinyImage (free : UInt8) : (tinyImage free).size = 3072 := by
  rw [tinyImage, VolumeContents.image, List.size_toArray, List.length_append,
    VolumeContents.length_front, tinyContents, List.length_replicate]

theorem tinyImage_ne : tinyImage 1 ≠ tinyImage 0 := by
  intro h
  have htail := List.append_cancel_left (List.toArray_inj h)
  obtain ⟨-, hfree⟩ := List.replicate_inj.mp htail
  exact absurd hfree (by decide)

theorem tinyImage_sameBlock {block : Nat}
    (h : VolumeContents.header.catalogFile.extents.Covers block) :
    Device.SameBlock (tinyImage 0) (tinyImage 1) 512 block := by
  have hlength := (tinyContents 0).length_front
  have hcatalog := VolumeContents.covers_iff.mp h
  exact Device.sameBlock_append (show block * 512 + 512 ≤ _ by omega)

/-- Shows the first two entries of the root folder. -/
def twoEntries : Plan (List (Except Error (Entry × Cursor))) :=
  .ask (.next ⟨.root, 0⟩) fun first =>
    match first with
    | .ok (_, c) => .ask (.next c) fun second => .done [first, second]
    | .error _ => .done [first]

theorem twoEntries_within (v : Volume) : twoEntries.Within v v.catalog.fork.extents.Covers := by
  refine .ask (fun _ h => h) ?_
  split
  · exact .ask (fun _ h => h) (.done _)
  · exact .done _

theorem tiny_confined :
    tinyImage 1 ≠ tinyImage 0 ∧ twoEntries.run (tinyVolume 1) = twoEntries.run (tinyVolume 0) ∧
      (⟨.root, 0⟩ : Cursor).next (tinyVolume 1) = (⟨.root, 0⟩ : Cursor).next (tinyVolume 0) := by
  obtain ⟨hplan, hnext⟩ := confined.2 (tinyImage 0) (tinyImage 1) (tinyVolume 0) (tinyVolume 1)
    ((size_tinyImage 1).trans (size_tinyImage 0).symm) (tinyContents 0).result_mount
    (tinyContents 1).result_mount rfl rfl (tinyVolume 0).catalog.fork.extents.Covers
    fun _ => tinyImage_sameBlock
  exact ⟨tinyImage_ne, hplan twoEntries (twoEntries_within _), hnext _ fun _ h => h⟩

end Volume

end HfsPlus
