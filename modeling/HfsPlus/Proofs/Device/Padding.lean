import HfsPlus.Device.Faulty
import HfsPlus.Proofs.Device.Reads

/-!
# Blocks that are too long

A device may hand out more than a block, and what is behind the block's own bytes
may be anything. `Device.Alike` are two devices that differ in this and in nothing
else, and `Run.Alike` are two runs in which the same things happen, but for how
long the blocks were, and which end alike.

The rules here take the one to the other. A block that is borrowed makes two runs
alike if its use stops at the end of the block (`Device.Alike.withBlock`), and
sequences of runs that are alike are alike. So it is at each single use of a block
that something has to be shown.
-/

namespace HfsPlus

namespace Event

/-- The event without the length of the block that was handed out. -/
def outline : Event → Event
  | .fetched block _ => .fetched block 0
  | event => event

@[simp] theorem requested?_outline (event : Event) :
    event.outline.requested? = event.requested? := by
  cases event <;> rfl

@[simp] theorem isRelease_outline (event : Event) : event.outline.isRelease = event.isRelease := by
  cases event <;> rfl

end Event

namespace Run

variable {α β : Type}

/-- The runs end alike, ask for the same blocks, and hand as many back. -/
structure SameLog (r r' : Run α) : Prop where
  result_eq : r'.result = r.result
  requests_eq : r'.requests = r.requests
  releaseCount_eq : r'.releaseCount = r.releaseCount

/-- The runs end alike, and the same happens in both but for the lengths of blocks. -/
structure Alike (r r' : Run α) : Prop where
  result_eq : r'.result = r.result
  outline_eq : r'.events.map Event.outline = r.events.map Event.outline

namespace Alike

variable {r r' : Run α}

theorem refl (r : Run α) : Alike r r := ⟨rfl, rfl⟩

theorem bind {next next' : α → Run β} (h : Alike r r')
    (hnext : ∀ a, r.result = .ok a → Alike (next a) (next' a)) :
    Alike (r >>= next) (r' >>= next') := by
  cases hr : r.result with
  | error e =>
    rw [bind_of_error hr, bind_of_error (h.result_eq.trans hr)]
    exact ⟨rfl, h.outline_eq⟩
  | ok a =>
    have hrest := hnext a hr
    rw [bind_of_ok hr, bind_of_ok (h.result_eq.trans hr)]
    refine ⟨hrest.result_eq, ?_⟩
    rw [List.map_append, List.map_append, h.outline_eq, hrest.outline_eq]

theorem map (f : α → β) (h : Alike r r') : Alike (f <$> r) (f <$> r') :=
  ⟨congrArg (Except.map f) h.result_eq, h.outline_eq⟩

theorem sameLog (h : Alike r r') : SameLog r r' := by
  have hrequests := congrArg (List.filterMap Event.requested?) h.outline_eq
  have hreleases := congrArg (List.countP Event.isRelease) h.outline_eq
  simp only [List.filterMap_map, Function.comp_def, Event.requested?_outline] at hrequests
  simp only [List.countP_map, Function.comp_def, Event.isRelease_outline] at hreleases
  exact ⟨h.result_eq, hrequests, hreleases⟩

end Alike

end Run

namespace Device

/-- Two answers to a request for a block of this size are the same refusal, or both
are as long as a block at least and begin with the same block. -/
inductive SameAnswer (size : Nat) : Except Fault Bytes → Except Fault Bytes → Prop where
  | refused (fault : Fault) : SameAnswer size (.error fault) (.error fault)
  | handedOut {data data' : Bytes} (long : size ≤ data.length) (long' : size ≤ data'.length)
      (same : data'.take size = data.take size) : SameAnswer size (.ok data) (.ok data')

/-- Two devices, with blocks of one size, differ at most in what they hand out
behind the end of a block. -/
structure Alike (dev dev' : Device) : Prop where
  blockSize_eq : dev'.blockSize = dev.blockSize
  answers : ∀ block, SameAnswer dev.blockSize.toNat
    (dev.fetch dev.blockSize block) (dev'.fetch dev.blockSize block)

variable {α : Type} {dev dev' : Device}

/-- A block is used as far as it goes. -/
theorem Alike.withBlock (h : Alike dev dev') (block : Nat) {use : Bytes → Except Error α}
    (huse : ∀ data, dev.blockSize.toNat ≤ data.length →
      use (data.take dev.blockSize.toNat) = use data) :
    Run.Alike (dev.withBlock block use) (dev'.withBlock block use) := by
  have hanswer := h.answers block
  rw [Device.withBlock, Device.withBlock, h.blockSize_eq]
  generalize dev.fetch dev.blockSize block = answer at hanswer ⊢
  generalize dev'.fetch dev.blockSize block = answer' at hanswer ⊢
  cases hanswer with
  | refused fault => exact .refl _
  | handedOut long long' same =>
    refine ⟨?_, rfl⟩
    simp only [if_neg (Nat.not_lt.mpr long), if_neg (Nat.not_lt.mpr long')]
    rw [← huse _ long, ← huse _ long', same]

/-! ## Devices that add to each block -/

theorem fetch_withFaults (dev : Device) (excess : Nat) (size : UInt32) (block : Nat) :
    (dev.withFaults { excess := excess }).fetch size block =
      (dev.fetch size block).map (· ++ List.replicate excess FaultPlan.filler) := by
  have hlonger : ¬ (excess : Int) < 0 := by omega
  have hresize : FaultPlan.resize excess = (· ++ List.replicate excess FaultPlan.filler) := by
    funext data
    rw [FaultPlan.resize, if_neg hlonger, Int.natAbs_natCast]
  simp only [withFaults, List.not_mem_nil, if_false, hresize]

/-- A device that fills each block up is like the one that it gets the blocks from,
provided that this one gives full blocks. -/
theorem alike_withFaults {size : UInt32} (excess : Nat)
    (h : ∀ block data, dev.fetch size block = .ok data → size.toNat ≤ data.length) :
    Alike (dev.withBlockSize size)
      ((dev.withFaults { excess := excess }).withBlockSize size) where
  blockSize_eq := rfl
  answers := by
    intro block
    show SameAnswer size.toNat (dev.fetch size block)
      ((dev.withFaults { excess := excess }).fetch size block)
    rw [fetch_withFaults]
    cases hfetch : dev.fetch size block with
    | error fault => exact .refused fault
    | ok data =>
      have hlong := h block data hfetch
      refine .handedOut hlong ?_ (List.take_append_of_le_length hlong)
      rw [List.length_append]
      omega

theorem length_of_imageBlock {image : Array UInt8} {size : UInt32} {block : Nat} {data : Bytes}
    (h : imageBlock image size block = .ok data) : size.toNat ≤ data.length := by
  simp only [imageBlock] at h
  split at h
  · cases h
  split at h
  · cases h
  · next hin =>
    cases h
    rw [Array.length_toList, Array.size_extract]
    by_cases hzero : size = 0
    · simp [hzero]
    · have hfits : block * size.toNat + size.toNat ≤ image.size := by
        simp only [ne_eq, hzero, not_false_eq_true, true_and, Nat.not_lt] at hin
        exact hin
      omega

end Device

end HfsPlus
