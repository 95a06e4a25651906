import HfsPlus.Device.Basic

/-!
# Devices with faults

To see how an operation copes with a failing device, faults can be laid over any device: blocks
that are refused, and blocks that come out too short or too long.
-/

namespace HfsPlus

/-- What is wrong with a device. -/
structure FaultPlan where
  /-- The blocks that are refused. -/
  refused : List Nat := []
  /-- By how many bytes a block comes out longer, or shorter if negative. -/
  excess : Int := 0
deriving DecidableEq, Repr

namespace FaultPlan

/-- The byte that fills a block up. -/
def filler : UInt8 := 0xEE

/-- A block with `excess` bytes more than it should have. -/
def resize (excess : Int) (data : Bytes) : Bytes :=
  if excess < 0 then data.take (data.length - excess.natAbs)
  else data ++ List.replicate excess.natAbs filler

end FaultPlan

/-- The same device with faults. -/
def Device.withFaults (dev : Device) (plan : FaultPlan) : Device where
  blockSize := dev.blockSize
  fetch size block :=
    if block ∈ plan.refused then .error (.blockFailed block)
    else (dev.fetch size block).map (FaultPlan.resize plan.excess)

end HfsPlus
