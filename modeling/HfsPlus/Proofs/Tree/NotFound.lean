import HfsPlus.Proofs.Fork.Read
import HfsPlus.Proofs.Tree.Loads
import HfsPlus.Proofs.Tree.Scan

/-!
# What it means that a search finds nothing

A search that finds nothing should mean that the record is not there
(`Absence`). It gives the same answer in one case more. A node whose bytes lie
within the length of the tree's fork, but in a block that its extents do not
reach, is not found either (`Unmapped`), and the search passes that on as if
the record were not there. That is the only exception: an error of a search is
that of a load, or it is one of its own (`Explains`), and of these `Absence`
says which they are.
-/

namespace HfsPlus

namespace Tree

variable {load : UInt32 → Run Node} {tree : Tree}
  {order : KeyedRecord → Except Error Ordering}

/-! ## The whole search -/

section Explains

variable {α β : Type} {E : Error → Prop}

/-- If the run failed, then a load on record did, with the same error, or the error
has `E`. -/
def Explains (load : UInt32 → Run Node) (E : Error → Prop) (r : Run α) : Prop :=
  ∀ e, r.result = .error e → (∃ number ∈ r.nodes, (load number).result = .error e) ∨ E e

theorem Explains.bind {r : Run α} {next : α → Run β} (h : Explains load E r)
    (hnext : ∀ a, r.result = .ok a → Explains load E (next a)) :
    Explains load E (r >>= next) := by
  intro e he
  rw [Run.result_bind] at he
  rcases error_or_exists_of_bind_eq_error he with he | ⟨a, ha, he⟩
  · refine (h e he).imp_left ?_
    rintro ⟨number, hmem, hload⟩
    exact ⟨number, Run.mem_nodes_bind.mpr (.inl hmem), hload⟩
  · refine (hnext a ha e he).imp_left ?_
    rintro ⟨number, hmem, hload⟩
    exact ⟨number, Run.mem_nodes_bind.mpr (.inr ⟨a, ha, hmem⟩), hload⟩

theorem explains_recording (load : UInt32 → Run Node) (id : CatalogId)
    (number : UInt32) : Explains load E (recording load id number) := by
  intro e he
  rw [result_recording] at he
  exact .inl ⟨number, by simp [nodes_recording], he⟩

theorem explains_of_loads {id : CatalogId} {r : Run α}
    (h : Run.Loads (recording load id) E r) : Explains load E r := by
  induction h with
  | ofExcept own => exact fun e he => .inr (own e he)
  | descending id child => exact nofun
  | load number => exact explains_recording load id number
  | bind first behind ih ihbehind => exact ih.bind ihbehind

end Explains

/-- A search finds nothing because the record is not there, or because a node
that it asks for is not found. -/
theorem absence_or_exists_of_search {dev : Device} {skip : Nat}
    (h : (tree.search dev order skip).result = .error .notFound) :
    (∃ number ∈ tree.loads dev order skip,
      (tree.readNode dev number).result = .error .notFound) ∨
    Absence (tree.readNode dev) tree order skip := by
  have hloads : Run.Loads (recording (tree.readNode dev) tree.id)
      (fun e => e = .notFound → Absence (tree.readNode dev) tree order skip)
      (searchWith (recording (tree.readNode dev) tree.id) tree order skip) :=
    loads_searchWith (fun number => (result_recording _ _ number).symm) (fun _ => nofun)
      (fun habsence _ => habsence) fun _ _ hne _ he => absurd he hne
  rw [search, ← result_searchWith_congr (result_recording (tree.readNode dev) tree.id)] at h
  exact (explains_of_loads hloads .notFound h).imp_right fun habsence => habsence rfl

/-! ## Nodes that the extents do not reach -/

/-- The node lies within the length of the tree's fork, and the first of its
blocks that cannot be read is one that the fork has no place for. -/
def Unmapped (dev : Device) (tree : Tree) (number : UInt32) : Prop :=
  0 < dev.blockSize.toNat ∧ tree.nodeSize.toNat ≠ 0 ∧
    number.toNat * tree.nodeSize.toNat + tree.nodeSize.toNat ≤ tree.fork.size.toNat ∧
    tree.fork.RunsOut dev (number.toNat * tree.nodeSize.toNat) tree.nodeSize.toNat

theorem readNode_eq_notFound_iff {dev : Device} {number : UInt32} :
    (tree.readNode dev number).result = .error .notFound ↔
      tree.Unmapped dev number := by
  rw [Unmapped, ← Fork.result_readAt_eq_notFound_iff, result_readNode]
  cases hread : (tree.fork.readAt dev (number.toNat * tree.nodeSize.toNat)
      tree.nodeSize.toNat).result with
  | error e => simp [Except.bind]
  | ok bytes =>
    exact iff_of_false (Node.onlyDamage_parse number bytes).ne_notFound (by simp)

/-! ## What a search that finds nothing is held to -/

/-- Nothing found means that every node asked for was loaded and the record is
not there; a node that cannot be loaded makes the search fail otherwise. -/
def HidesNoLoad (dev : Device) (tree : Tree)
    (order : KeyedRecord → Except Error Ordering) (skip : Nat) : Prop :=
  ((tree.search dev order skip).result = .error .notFound →
    (∀ number ∈ tree.loads dev order skip,
      ∃ node, (tree.readNode dev number).result = .ok node) ∧
    Absence (tree.readNode dev) tree order skip) ∧
  ∀ number ∈ tree.loads dev order skip, ∀ e,
    (tree.readNode dev number).result = .error e →
    ∃ e', e' ≠ .notFound ∧ (tree.search dev order skip).result = .error e'

theorem hidesNoLoad_of_mapped {dev : Device} {skip : Nat}
    (h : ∀ number ∈ tree.loads dev order skip, ¬ tree.Unmapped dev number) :
    tree.HidesNoLoad dev order skip := by
  have hfound : ∀ number ∈ tree.loads dev order skip,
      (tree.readNode dev number).result ≠ .error .notFound :=
    fun number hmem hload => h number hmem (readNode_eq_notFound_iff.mp hload)
  refine ⟨fun hsearch => ⟨fun number hmem => ?_, ?_⟩, fun number hmem e he => ?_⟩
  · cases hload : (tree.readNode dev number).result with
    | ok node => exact ⟨node, rfl⟩
    | error e =>
      rw [result_search_of_mem_loads hmem hload] at hsearch
      cases hsearch
      exact absurd hload (hfound number hmem)
  · refine (absence_or_exists_of_search hsearch).resolve_left ?_
    rintro ⟨number, hmem, hload⟩
    exact hfound number hmem hload
  · refine ⟨e, fun heq => ?_, result_search_of_mem_loads hmem he⟩
    exact hfound number hmem (heq ▸ he)

/-- A search hides no load exactly if it asks for no node that the extents do
not reach. -/
theorem hidesNoLoad_iff (dev : Device) (tree : Tree)
    (order : KeyedRecord → Except Error Ordering) (skip : Nat) :
    tree.HidesNoLoad dev order skip ↔
      ∀ number ∈ tree.loads dev order skip, ¬ tree.Unmapped dev number := by
  refine ⟨fun h number hmem hunmapped => ?_, hidesNoLoad_of_mapped⟩
  have hload := readNode_eq_notFound_iff.mpr hunmapped
  obtain ⟨e, hne, he⟩ := h.2 number hmem _ hload
  rw [result_search_of_mem_loads hmem hload] at he
  cases he
  exact hne rfl

/-- The sample, with its first leaf for a root, and extents that end behind that
leaf. The length of the fork still has the second leaf, which the first links
to. -/
def truncatedTree : Tree := {
  sampleTree with
  rootNode := 1
  fork := {
    size := 208
    extents :=
      #v[⟨6, 2⟩, ⟨0, 2⟩, .unused, .unused, .unused, .unused, .unused, .unused] } }

theorem truncated_readNode :
    (truncatedTree.readNode sampleDevice 2).result = .error .notFound := by
  cbv

theorem truncated_loads :
    truncatedTree.loads sampleDevice (byBytes.order [0, 0, 0, 2, 0, 0]) 2 = [1, 2] := by
  decide +kernel

/-- Counting on from the first leaf finds nothing, though the second could not
be loaded. -/
theorem truncated_hides_load :
    ¬ truncatedTree.HidesNoLoad sampleDevice (byBytes.order [0, 0, 0, 2, 0, 0]) 2 := by
  rintro ⟨h, -⟩
  have hasked : 2 ∈ truncatedTree.loads sampleDevice
      (byBytes.order [0, 0, 0, 2, 0, 0]) 2 := by
    rw [truncated_loads]
    decide
  obtain ⟨hloads, -⟩ := h (result_search_of_mem_loads hasked truncated_readNode)
  obtain ⟨node, hnode⟩ := hloads 2 hasked
  rw [truncated_readNode] at hnode
  cases hnode

end Tree

end HfsPlus
