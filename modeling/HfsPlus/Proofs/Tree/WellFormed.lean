import HfsPlus.Proofs.Tree.KeyOrder
import HfsPlus.Proofs.Tree.Node

/-!
# Well-formed trees

What a tree on a volume has to be for a search in it to mean anything. From
the root down it is a finite tree of loadable nodes, index nodes above leaves
and none of them empty; the records of its leaves, read from left to right,
ascend; an index record leads to the records from its own key up to the next
one's; and the forward links string the leaves together in that same order.

`Subtree` builds the part below a node together with the list of its leaves,
one constructor for each kind of node, and every argument about a whole tree
is an induction over it. Levels are counted down from the number that a search
allows itself, so a tree of any shape within that depth is one, whether or not
its leaves lie equally deep.
-/

namespace HfsPlus

/-- The records of a node, in order. -/
def Node.hits (node : Node) : List Hit :=
  (List.range node.recordCount).map fun index => { node, index }

theorem Node.length_hits (node : Node) : node.hits.length = node.recordCount := by
  simp [hits]

/-- The records of these leaves, from left to right. -/
def Tree.records (leaves : List Node) : List Hit := leaves.flatMap Node.hits

namespace Tree

variable {κ : Type} {dev : Device} {tree : Tree} {o : KeyOrder κ}

/-- The node at this number loads, is of this kind, has records, and the key
of each is readable. -/
structure Holds (dev : Device) (tree : Tree) (o : KeyOrder κ) (kind : NodeKind)
    (number : UInt32) (node : Node) : Prop where
  loads : (tree.readNode dev number).result = .ok node
  kind_eq : node.kind = .ok kind
  ne_empty : node.recordCount ≠ 0
  readable : ∀ i < node.recordCount, ∃ k, o.keyOf ⟨node, i⟩ = .ok k

/-- The part of a tree below the node at `number`, with at most `levels`
levels, whose leaves are `leaves` from left to right. -/
inductive Subtree (dev : Device) (tree : Tree) (o : KeyOrder κ) :
    (levels : Nat) → (number : UInt32) → (leaves : List Node) → Prop where
  | leaf {levels : Nat} {number : UInt32} {node : Node}
      (holds : tree.Holds dev o .leaf number node) :
      Subtree dev tree o (levels + 1) number [node]
  /-- Record `i` leads to `child i`, and the records below that are neither
  below its key nor from the next record's key up. -/
  | index {levels : Nat} {number : UInt32} {node : Node} {child : Nat → UInt32}
      {below : Nat → List Node}
      (holds : tree.Holds dev o .index number node)
      (leads : ∀ i < node.recordCount, childAt node i = .ok (child i))
      (subtrees : ∀ i < node.recordCount,
        Subtree dev tree o levels (child i) (below i))
      (lower : ∀ i < node.recordCount, ∀ hit ∈ records (below i),
        o.NotAfter ⟨node, i⟩ hit)
      (upper : ∀ i, i + 1 < node.recordCount → ∀ hit ∈ records (below i),
        o.Before hit ⟨node, i + 1⟩) :
      Subtree dev tree o (levels + 1) number
        ((List.range node.recordCount).flatMap below)

/-- Each leaf links to the next, and the last to none. Zero stands for no link,
so nothing links to a leaf of that number. -/
inductive Linked : List Node → Prop where
  | last {node : Node} (link : node.forwardLink = 0) : Linked [node]
  | cons {node next : Node} {rest : List Node}
      (link : node.forwardLink = next.number) (ne_zero : node.forwardLink ≠ 0)
      (linked : Linked (next :: rest)) : Linked (node :: next :: rest)

/-- A well-formed tree with these leaves. -/
structure WellFormed (dev : Device) (tree : Tree) (o : KeyOrder κ)
    (leaves : List Node) : Prop where
  root_ne_zero : tree.rootNode ≠ 0
  subtree : tree.Subtree dev o maxDepth tree.rootNode leaves
  ascending : (records leaves).Pairwise o.Before
  linked : Linked leaves
  length_le : leaves.length ≤ tree.totalNodes.toNat

/-! ## What follows at once

The leaves of a well-formed tree are loaded under their own numbers and none
is empty, and since their records ascend strictly no number comes twice. So
no leaf links to itself. -/

theorem records_singleton (node : Node) : records [node] = node.hits := by
  simp [records]

theorem getElem?_records_cons (node : Node) (rest : List Node) (i : Nat) :
    (records (node :: rest))[i]? =
      if i < node.recordCount then some ⟨node, i⟩
      else (records rest)[i - node.recordCount]? := by
  rw [records, List.flatMap_cons, List.getElem?_append, Node.length_hits]
  split
  · next hi => simp [Node.hits, hi]
  · rfl

theorem length_records_cons (node : Node) (rest : List Node) :
    (records (node :: rest)).length = node.recordCount + (records rest).length := by
  rw [records, List.flatMap_cons, List.length_append, Node.length_hits, records]

/-- A node counts its records in 16 bits. -/
theorem length_records_le (leaves : List Node) :
    (records leaves).length ≤ 65535 * leaves.length := by
  induction leaves with
  | nil => exact Nat.le_refl _
  | cons leaf rest ih =>
    have hcount : leaf.recordCount < 65536 := leaf.descriptor.recordCount.toNat_lt
    rw [length_records_cons, List.length_cons]
    omega

theorem mem_hits {node : Node} {hit : Hit} :
    hit ∈ node.hits ↔ hit.node = node ∧ hit.index < node.recordCount := by
  obtain ⟨n, i⟩ := hit
  constructor
  · intro h
    obtain ⟨j, hj, he⟩ := List.mem_map.mp h
    cases he
    exact ⟨rfl, List.mem_range.mp hj⟩
  · rintro ⟨rfl, hi⟩
    exact List.mem_map.mpr ⟨i, List.mem_range.mpr hi, rfl⟩

theorem Holds.number_eq {kind : NodeKind} {number : UInt32} {node : Node}
    (h : tree.Holds dev o kind number node) : node.number = number :=
  number_of_readNode h.loads

theorem Holds.first_mem {kind : NodeKind} {number : UInt32} {node : Node}
    (h : tree.Holds dev o kind number node) : ⟨node, 0⟩ ∈ node.hits :=
  mem_hits.mpr ⟨rfl, Nat.pos_of_ne_zero h.ne_empty⟩

theorem readable_of_keys {node : Node} {keys : List κ}
    (h : node.hits.map o.keyOf = keys.map .ok) :
    ∀ i < node.recordCount, ∃ k, o.keyOf ⟨node, i⟩ = .ok k := by
  intro i hi
  have hmem : (⟨node, i⟩ : Hit) ∈ node.hits := mem_hits.mpr ⟨rfl, hi⟩
  obtain ⟨k, -, hk⟩ := KeyOrder.exists_key_of_mem h hmem
  exact ⟨k, hk⟩

theorem Subtree.holds_of_mem {levels : Nat} {number : UInt32} {leaves : List Node}
    (h : tree.Subtree dev o levels number leaves) {leaf : Node}
    (hleaf : leaf ∈ leaves) : tree.Holds dev o .leaf leaf.number leaf := by
  induction h with
  | leaf holds =>
    obtain rfl := List.mem_singleton.mp hleaf
    rw [holds.number_eq]
    exact holds
  | index _ _ _ _ _ ih =>
    obtain ⟨i, hi, hmem⟩ := List.mem_flatMap.mp hleaf
    exact ih i (List.mem_range.mp hi) hmem

theorem Subtree.exists_record {levels : Nat} {number : UInt32} {leaves : List Node}
    (h : tree.Subtree dev o levels number leaves) : ∃ hit, hit ∈ records leaves := by
  induction h with
  | leaf holds => exact ⟨_, List.mem_flatMap.mpr ⟨_, by simp, holds.first_mem⟩⟩
  | index holds _ _ _ _ ih =>
    have hpos := Nat.pos_of_ne_zero holds.ne_empty
    obtain ⟨hit, hmem⟩ := ih 0 hpos
    obtain ⟨leaf, hleaf, hhit⟩ := List.mem_flatMap.mp hmem
    exact ⟨hit, List.mem_flatMap.mpr
      ⟨leaf, List.mem_flatMap.mpr ⟨0, List.mem_range.mpr hpos, hleaf⟩, hhit⟩⟩

theorem Linked.of_append {pre post : List Node} {node : Node}
    (h : Linked (pre ++ node :: post)) : Linked (node :: post) := by
  induction pre with
  | nil => exact h
  | cons first rest ih =>
    rw [List.cons_append] at h
    refine ih ?_
    generalize hl : rest ++ node :: post = l at h ⊢
    cases h with
    | last => simp at hl
    | cons _ _ linked => exact linked

theorem WellFormed.holds_of_mem {leaves : List Node}
    (h : tree.WellFormed dev o leaves) {leaf : Node} (hleaf : leaf ∈ leaves) :
    tree.Holds dev o .leaf leaf.number leaf :=
  h.subtree.holds_of_mem hleaf

theorem WellFormed.numbers_distinct {leaves : List Node}
    (h : tree.WellFormed dev o leaves) :
    leaves.Pairwise fun a b => a.number ≠ b.number := by
  have hsep := (List.pairwise_flatMap.mp h.ascending).2
  refine hsep.imp_of_mem fun {a b} ha hb hab heq => ?_
  have hla := (h.holds_of_mem ha)
  have hlb := (h.holds_of_mem hb)
  obtain rfl : a = b := by
    have := hla.loads.symm.trans (heq ▸ hlb.loads)
    injection this
  exact KeyOrder.Before.irrefl _ (hab _ hla.first_mem _ hla.first_mem)

end Tree

end HfsPlus
