import HfsPlus.Proofs.Fork.Contents
import HfsPlus.Proofs.Tree.Loads
import HfsPlus.Proofs.Tree.Node

/-!
# Where a tree lies does not matter

The size of a block, the extents and the device itself are seen by nothing
above the fork. Two forks that store the same bytes are read alike; opening
them gives trees that differ in their forks; and since a search has its nodes
from a loader and looks at the tree for its name and its size only
(`searchWith_fork`), the two trees are searched alike, to the last error.
-/

namespace HfsPlus

variable {dev dev' : Device} {fork fork' : Fork} {content : Bytes}

namespace Fork

theorem Stores.size_unique (h : fork.Stores dev content) (h' : fork'.Stores dev' content) :
    fork'.size = fork.size :=
  UInt64.toNat_inj.mp (h'.size_eq.trans h.size_eq.symm)

theorem result_readAt_congr (h : fork.Stores dev content) (h' : fork'.Stores dev' content)
    (pos len : Nat) :
    (fork.readAt dev pos len).result = (fork'.readAt dev' pos len).result := by
  rw [result_readAt_of_stores h, result_readAt_of_stores h']

theorem result_readWhole_congr (h : fork.Stores dev content)
    (h' : fork'.Stores dev' content) (limit : Nat) :
    (fork.readWhole dev limit).result = (fork'.readWhole dev' limit).result := by
  simp only [readWhole, h.size_unique h', apply_ite Run.result, result_readAt_congr h h']

end Fork

namespace Tree

theorem result_ofFork (dev : Device) (id : CatalogId) (fork : Fork) :
    (ofFork dev id fork).result =
      (fork.readAt dev NodeDescriptor.size TreeHeader.size).result.bind fun bytes =>
        (TreeHeader.format.read bytes).bind fun header =>
          if ValidNodeSize header.nodeSize then
            .ok {
              id
              fork
              rootNode := header.rootNode
              nodeSize := header.nodeSize
              totalNodes := header.totalNodes }
          else .error (.corrupted (.nodeSize header.nodeSize)) := by
  rw [ofFork, Run.result_bind]
  congr 1
  funext bytes
  rw [Run.result_bind, Run.result_liftM]
  congr 1
  funext header
  by_cases hsize : ValidNodeSize header.nodeSize
  · rw [if_pos hsize, if_pos hsize]
    rfl
  · rw [if_neg hsize, if_neg hsize]
    rfl

/-- Two trees that are opened on the same bytes differ in their forks. -/
theorem result_ofFork_congr (h : fork.Stores dev content) (h' : fork'.Stores dev' content)
    (id : CatalogId) :
    (ofFork dev' id fork').result =
      (fun tree : Tree => { tree with fork := fork' }) <$> (ofFork dev id fork).result := by
  rw [result_ofFork, result_ofFork, Fork.result_readAt_congr h h']
  cases (fork'.readAt dev' NodeDescriptor.size TreeHeader.size).result with
  | error e => rfl
  | ok bytes =>
    show (TreeHeader.format.read bytes).bind _ = _ <$> (TreeHeader.format.read bytes).bind _
    cases TreeHeader.format.read bytes with
    | error e => rfl
    | ok header =>
      show (if _ then _ else _) = _ <$> (if _ then _ else _)
      split <;> rfl

theorem result_readNode_congr {tree : Tree} (h : tree.fork.Stores dev content)
    (h' : fork'.Stores dev' content) (number : UInt32) :
    (tree.readNode dev number).result =
      (({ tree with fork := fork' } : Tree).readNode dev' number).result := by
  rw [result_readNode, result_readNode, Fork.result_readAt_congr h h']

/-- A walk along the leaves does not look at the tree's fork. -/
theorem advance_fork (load : UInt32 → Run Node) (tree : Tree) (fork' : Fork) :
    ∀ {hops : Nat} {node : Node} {index skip : Nat},
    advance load { tree with fork := fork' } hops node index skip =
      advance load tree hops node index skip := by
  intro hops
  induction hops with
  | zero =>
    intro node index skip
    rw [advance_eq, advance_eq]
  | succ hops ih =>
    intro node index skip
    rw [advance_eq, advance_eq]
    simp only [ih]

theorem searchWith_fork (load : UInt32 → Run Node) (tree : Tree) (fork' : Fork)
    (order : KeyedRecord → Except Error Ordering) (skip : Nat) :
    searchWith load { tree with fork := fork' } order skip =
      searchWith load tree order skip := by
  rw [searchWith, searchWith]
  simp only [advance_fork]

theorem result_search_congr {tree : Tree} (h : tree.fork.Stores dev content)
    (h' : fork'.Stores dev' content) (order : KeyedRecord → Except Error Ordering)
    (skip : Nat) :
    (tree.search dev order skip).result =
      (({ tree with fork := fork' } : Tree).search dev' order skip).result := by
  rw [search, search, searchWith_fork _ tree fork']
  exact result_searchWith_congr (result_readNode_congr h h') skip

/-- Nothing that is read of a fork, and no search of a tree in it, depends on the
extents, the size of a block, or the device: only on the bytes. -/
theorem results_of_same_bytes {extents : ExtentRecord} (h : fork.Stores dev content)
    (h' : ({ fork with extents } : Fork).Stores dev' content) :
    let moved : Fork := { fork with extents }
    (∀ pos len, (fork.readAt dev pos len).result = (moved.readAt dev' pos len).result) ∧
    (∀ limit, (fork.readWhole dev limit).result = (moved.readWhole dev' limit).result) ∧
    (∀ id, (ofFork dev' id moved).result =
      (fun tree : Tree => { tree with fork := moved }) <$> (ofFork dev id fork).result) ∧
    ∀ tree : Tree, tree.fork = fork →
      (∀ number, (tree.readNode dev number).result =
        (({ tree with fork := moved } : Tree).readNode dev' number).result) ∧
      ∀ order skip, (tree.search dev order skip).result =
        (({ tree with fork := moved } : Tree).search dev' order skip).result := by
  refine ⟨Fork.result_readAt_congr h h', Fork.result_readWhole_congr h h',
    result_ofFork_congr h h', ?_⟩
  rintro tree rfl
  exact ⟨result_readNode_congr h h', result_search_congr h h'⟩

/-! ### A sample

A tree of one leaf, once with a node to a block, and once in blocks of a third
of that, which start in the middle of the device. -/

def smallContent : Bytes := [
  -- Node 0, which no search comes to.
  0, 0, 0, 0, 0, 0, 0, 0, 0, 0, 0, 0, 0, 0, 0, 0, 0, 0, 0, 0, 0,
  -- A leaf with one record, of one byte of key.
  0, 0, 0, 0, 0, 0, 0, 0, 0xFF, 1, 0, 1, 0, 0, 0, 1, 7, 0, 17, 0, 14]

def alignedDevice : Device := (Device.ofImage smallContent.toArray).withBlockSize 21

def alignedTree : Tree where
  id := .catalogFile
  fork := {
    size := 42
    extents := #v[⟨0, 2⟩, .unused, .unused, .unused, .unused, .unused, .unused, .unused] }
  rootNode := 1
  nodeSize := 21
  totalNodes := 2

def scatteredDevice : Device :=
  (Device.ofImage (smallContent.drop 14 ++ smallContent.take 14).toArray).withBlockSize 7

def scatteredExtents : ExtentRecord :=
  #v[⟨4, 2⟩, ⟨0, 4⟩, .unused, .unused, .unused, .unused, .unused, .unused]

theorem aligned_stores : alignedTree.fork.Stores alignedDevice smallContent where
  blockSize_pos := by decide
  size_eq := by decide
  byte?_eq := by decide +kernel

theorem scattered_stores :
    ({ alignedTree.fork with extents := scatteredExtents } : Fork).Stores scatteredDevice
      smallContent where
  blockSize_pos := by decide
  size_eq := by decide
  byte?_eq := by decide +kernel

theorem scattered_searched :
    let moved : Fork := { alignedTree.fork with extents := scatteredExtents }
    (({ alignedTree with fork := moved } : Tree).search scatteredDevice
      (fun _ => .ok .eq) 0).result =
        (alignedTree.search alignedDevice (fun _ => .ok .eq) 0).result ∧
      (fun hit : Hit => (hit.node.number, hit.index)) <$>
        (alignedTree.search alignedDevice (fun _ => .ok .eq) 0).result = .ok (1, 0) := by
  obtain ⟨-, -, -, h⟩ := results_of_same_bytes aligned_stores scattered_stores
  exact ⟨((h alignedTree rfl).2 (fun _ => .ok .eq) 0).symm, by cbv⟩

end Tree

end HfsPlus
