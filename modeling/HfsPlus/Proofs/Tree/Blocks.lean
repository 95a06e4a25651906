import HfsPlus.Proofs.Fork.Blocks
import HfsPlus.Proofs.Tree.InStep

/-!
# The blocks of a tree

Node numbers, children and links come from the volume, and all a search does
with them is to hand them to its loader. So what a load borrows, every search
borrows, and nothing else; and a load borrows blocks of the tree's fork
(`reads_search`). The same goes for what a search depends on: it has the device
through its loader only.
-/

namespace HfsPlus.Tree

variable {dev dev' : Device} {tree : Tree} {P : Nat → Prop} {load : UInt32 → Run Node}
  {order : KeyedRecord → Except Error Ordering}

theorem reads_ofFork (dev : Device) (id : CatalogId) (fork : Fork) :
    Run.Reads dev fork.extents.Covers (ofFork dev id fork) := by
  rw [ofFork]
  refine (Fork.reads_readAt dev fork _ _).bind fun bytes _ => ?_
  refine (Run.Reads.liftM _).bind fun header _ => ?_
  by_cases hsize : ValidNodeSize header.nodeSize
  · rw [if_pos hsize]
    exact (Run.Reads.pure _).bind fun _ _ => (Run.Reads.note _).bind fun _ _ => .pure _
  · rw [if_neg hsize]
    exact (Run.Reads.fail _).bind fun _ _ => (Run.Reads.note _).bind fun _ _ => .pure _

/-- Opening a tree takes no more than reading its header. -/
theorem requests_ofFork (dev : Device) (id : CatalogId) (fork : Fork) :
    (ofFork dev id fork).requests =
      (fork.readAt dev NodeDescriptor.size TreeHeader.size).requests := by
  rw [ofFork]
  refine Run.requests_bind_of_quiet fun bytes => ?_
  cases hread : TreeHeader.format.read bytes with
  | error e => exact Run.requests_bind_of_error rfl _
  | ok header =>
    rw [Run.requests_bind_of_ok (Run.result_liftM _)]
    by_cases hsize : ValidNodeSize header.nodeSize
    · rw [if_pos hsize]
      rfl
    · rw [if_neg hsize]
      rfl

theorem reads_readNode (dev : Device) (tree : Tree) (number : UInt32) :
    Run.Reads dev tree.fork.extents.Covers (tree.readNode dev number) :=
  (Fork.reads_readAt dev tree.fork _ _).bind fun _ _ =>
    (Run.Reads.note _).bind fun _ _ => .liftM _

/-! ## The search -/

theorem reads_of_loads {α : Type} {E : Error → Prop} {r : Run α}
    (hload : ∀ number, Run.Reads dev P (load number)) (h : Run.Loads load E r) :
    Run.Reads dev P r := by
  induction h with
  | ofExcept own => exact .ofExcept _
  | descending id child => exact .note _
  | load number => exact hload number
  | bind first behind ih ihbehind => exact ih.bind ihbehind

theorem reads_search (dev : Device) (tree : Tree)
    (order : KeyedRecord → Except Error Ordering) (skip : Nat) :
    Run.Reads dev tree.fork.extents.Covers (tree.search dev order skip) :=
  reads_of_loads (reads_readNode dev tree) (loads_any _ tree order skip)

/-! ## What they depend on -/

theorem readNode_congr (h : Device.Agree tree.fork.extents.Covers dev dev')
    (number : UInt32) : tree.readNode dev' number = tree.readNode dev number := by
  simp only [readNode, Fork.readAt_congr h]

theorem search_congr (h : Device.Agree tree.fork.extents.Covers dev dev')
    (order : KeyedRecord → Except Error Ordering) (skip : Nat) :
    tree.search dev' order skip = tree.search dev order skip := by
  have hload : tree.readNode dev' = tree.readNode dev := funext (readNode_congr h)
  rw [search, search, hload]

end HfsPlus.Tree
