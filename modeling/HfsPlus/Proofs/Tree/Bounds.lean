import HfsPlus.Proofs.Tree.Genuine

/-!
# How far a search can go

The pointers on a volume may form any graph, so the ends of the two walks are
not in it: the way down has its levels and the way along the leaves its hops,
and each load takes one of them. `length_loadsDown_le` and
`length_loadsAlong_le` count them on the list of nodes that a search asks for,
and `nodes_search` ties that list to the search itself, whose own record of the
nodes it read is a first part of it.

The hops also bound the records: a leaf counts its own in 16 bits, so a search
that is told to go on over too many of them cannot succeed (`skip_lt_of_search`).
-/

namespace HfsPlus

namespace Run

variable {α β : Type} {r : Run α} {next : α → Run β}

theorem nodes_bind_eq_nil (h : r.nodes = []) (hnext : ∀ a, (next a).nodes = []) :
    (r >>= next).nodes = [] := by
  cases hr : r.result with
  | error e => rw [nodes_bind_of_error hr, h]
  | ok a => rw [nodes_bind_of_ok hr, h, hnext, List.append_nil]

theorem length_nodes_bind_le {m n : Nat} (h : r.nodes.length ≤ m)
    (hnext : ∀ a, (next a).nodes.length ≤ n) : (r >>= next).nodes.length ≤ m + n := by
  cases hr : r.result with
  | error e =>
    rw [nodes_bind_of_error hr]
    omega
  | ok a =>
    have hrest := hnext a
    rw [nodes_bind_of_ok hr, List.length_append]
    omega

theorem length_nodes_bind_le_of_nil {n : Nat} (h : r.nodes = [])
    (hnext : ∀ a, (next a).nodes.length ≤ n) : (r >>= next).nodes.length ≤ n := by
  rw [← Nat.zero_add n]
  exact length_nodes_bind_le (by rw [h]; exact Nat.le_refl 0) hnext

/-- The first of two runs puts the same nodes on record as the second, or it fails
and its record breaks off before the last of them. -/
structure Mirrors (r : Run α) (full : Run β) : Prop where
  initial : r.nodes <+: full.nodes
  complete : ∀ a, r.result = .ok a → r.nodes = full.nodes

theorem Mirrors.of_nodes_eq {r : Run α} {full : Run β} (h : r.nodes = full.nodes) :
    Mirrors r full :=
  ⟨h ▸ List.prefix_refl _, fun _ _ => h⟩

theorem InStep.mirrors {load load' : UInt32 → Run Node} {R : Node → Node → Prop}
    {E : Error → Prop} {Q : α → β → Prop} {r : Run α} {full : Run β}
    (h : InStep load load' R E Q r full)
    (hload : ∀ number, EndsAlike R (load number).result (load' number).result)
    (hnodes : ∀ number, Mirrors (load number) (load' number)) : Mirrors r full := by
  induction h with
  | ofExcept _ _ => exact .of_nodes_eq rfl
  | descending id child => exact .of_nodes_eq rfl
  | load number => exact hnodes number
  | bind first _ ih ihbehind =>
    rcases (first.endsAlike hload).error_or_ok with ⟨e, hr, hr'⟩ | ⟨a, b, hr, hr', hab⟩
    · refine ⟨?_, fun c hc => ?_⟩
      · rw [nodes_bind_of_error hr, nodes_bind_of_error hr']
        exact ih.initial
      · rw [result_bind_of_error hr] at hc
        cases hc
    · have hrest := ihbehind a b hr hab
      refine ⟨?_, fun c hc => ?_⟩
      · rw [nodes_bind_of_ok hr, nodes_bind_of_ok hr', ih.complete a hr]
        exact (List.prefix_append_right_inj _).mpr hrest.initial
      · rw [result_bind_of_ok hr] at hc
        rw [nodes_bind_of_ok hr, nodes_bind_of_ok hr', ih.complete a hr, hrest.complete c hc]

end Run

/-! ## Reading a fork puts no node on record -/

namespace Fork

variable {dev : Device} {fork : Fork}

theorem nodes_resolve (fork : Fork) (logicalBlock : UInt32) :
    (fork.resolve logicalBlock).nodes = [] := by
  rw [resolve]
  split
  · exact Run.nodes_bind_eq_nil rfl fun _ => rfl
  · rfl

theorem nodes_withBlock {α : Type} (dev : Device) (block : Nat)
    (use : Bytes → Except Error α) : (dev.withBlock block use).nodes = [] := by
  rw [Device.withBlock]
  cases dev.fetch dev.blockSize block <;> rfl

theorem nodes_readBlocks (hsize : 0 < dev.blockSize.toNat) (pos len : Nat) :
    (readBlocks dev fork hsize pos len).nodes = [] := by
  fun_induction readBlocks dev fork hsize pos len with
  | case1 pos => rfl
  | case2 pos len hlen blockSize logicalBlock hout => rfl
  | case3 pos len hlen blockSize logicalBlock hin ih =>
    refine Run.nodes_bind_eq_nil (nodes_resolve fork _) fun extent => ?_
    exact Run.nodes_bind_eq_nil (nodes_withBlock dev _ _) fun piece => ih

theorem nodes_readAt (dev : Device) (fork : Fork) (pos len : Nat) :
    (fork.readAt dev pos len).nodes = [] := by
  simp only [readAt]
  split
  · rfl
  · split
    · exact nodes_readBlocks _ pos len
    · rfl

end Fork

namespace Tree

variable {load : UInt32 → Run Node} {order : KeyedRecord → Except Error Ordering}
  {dev : Device} {tree : Tree}

/-! ## The search's own record -/

/-- A node is put on record between the read and the parse. -/
theorem mirrors_readNode (dev : Device) (tree : Tree) (number : UInt32) :
    Run.Mirrors (tree.readNode dev number)
      (recording (tree.readNode dev) tree.id number) := by
  have hread := Fork.nodes_readAt dev tree.fork (number.toNat * tree.nodeSize.toNat)
    tree.nodeSize.toNat
  cases hbytes : (tree.fork.readAt dev (number.toNat * tree.nodeSize.toNat)
      tree.nodeSize.toNat).result with
  | error e =>
    refine ⟨?_, fun node hnode => ?_⟩
    · rw [readNode, Run.nodes_bind_of_error hbytes, hread]
      exact List.nil_prefix
    · rw [readNode, Run.result_bind_of_error hbytes] at hnode
      cases hnode
  | ok bytes =>
    have hnodes : (tree.readNode dev number).nodes = [number] := by
      rw [readNode, Run.nodes_bind_of_ok hbytes, hread,
        Run.nodes_bind_of_ok (Run.result_note _)]
      rfl
    exact .of_nodes_eq (hnodes.trans (nodes_recording (tree.readNode dev) tree.id number).symm)

/-- The nodes that a search has on record are those that it asks for, but for
one whose bytes cannot be read. -/
theorem nodes_search (dev : Device) (tree : Tree)
    (order : KeyedRecord → Except Error Ordering) (skip : Nat) :
    (tree.search dev order skip).nodes <+: tree.loads dev order skip :=
  ((inStep_any _ _ tree order skip).mirrors
    (fun number => result_recording (tree.readNode dev) tree.id number ▸ .refl _)
    (mirrors_readNode dev tree)).initial

/-! ## Counting the loads -/

/-- The nodes that a search asks for on its way down. -/
def loadsDown (dev : Device) (tree : Tree)
    (order : KeyedRecord → Except Error Ordering) : List UInt32 :=
  if tree.rootNode = 0 then []
  else (descend (recording (tree.readNode dev) tree.id) order tree.id maxDepth
    tree.rootNode).nodes

/-- The nodes that it asks for along the leaves, behind the one with the equal
record. -/
def loadsAlong (dev : Device) (tree : Tree)
    (order : KeyedRecord → Except Error Ordering) (skip : Nat) : List UInt32 :=
  if tree.rootNode = 0 then []
  else
    match (descend (tree.readNode dev) order tree.id maxDepth tree.rootNode).result with
    | .error _ => []
    | .ok start =>
      (advance (recording (tree.readNode dev) tree.id) tree (tree.totalNodes.toNat - 1)
        start.node start.index skip).nodes

theorem loads_eq (dev : Device) (tree : Tree)
    (order : KeyedRecord → Except Error Ordering) (skip : Nat) :
    tree.loads dev order skip =
      tree.loadsDown dev order ++ tree.loadsAlong dev order skip := by
  rw [loads, searchWith, loadsDown, loadsAlong]
  split
  · rfl
  · rw [← result_descend_congr (result_recording (tree.readNode dev) tree.id)]
    cases hdown : (descend (recording (tree.readNode dev) tree.id) order tree.id maxDepth
        tree.rootNode).result with
    | error e => rw [Run.nodes_bind_of_error hdown, List.append_nil]
    | ok start => rw [Run.nodes_bind_of_ok hdown]

theorem length_nodes_descend_le (load : UInt32 → Run Node) (id : CatalogId) :
    ∀ {levels : Nat} {number : UInt32},
    (descend (recording load id) order id levels number).nodes.length ≤ levels := by
  intro levels
  induction levels with
  | zero =>
    intro number
    exact Nat.le_refl _
  | succ levels ih =>
    intro number
    have hload : (recording load id number).nodes.length ≤ 1 := by
      rw [nodes_recording]
      exact Nat.le_refl _
    rw [descend_succ, Nat.add_comm]
    refine Run.length_nodes_bind_le hload fun node => ?_
    refine Run.length_nodes_bind_le_of_nil rfl fun t => ?_
    cases t with
    | hit index => exact Nat.zero_le _
    | down child => exact Run.length_nodes_bind_le_of_nil rfl fun _ => ih

theorem length_nodes_advance_le (load : UInt32 → Run Node) (id : CatalogId) :
    ∀ {hops : Nat} {node : Node} {index skip : Nat},
    (advance (recording load id) tree hops node index skip).nodes.length ≤ hops := by
  intro hops
  induction hops with
  | zero =>
    intro node index skip
    rw [advance_eq]
    split
    · exact Nat.le_refl _
    · split
      · exact Nat.le_refl _
      · split <;> exact Nat.le_refl _
  | succ hops ih =>
    intro node index skip
    rw [advance_eq]
    split
    · exact Nat.zero_le _
    · split
      · exact Nat.zero_le _
      · split
        · exact Nat.zero_le _
        · have hload : (readSibling (recording load id) node.forwardLink).nodes.length ≤ 1 := by
            rw [nodes_readSibling]
            exact Nat.le_refl _
          have hle := Run.length_nodes_bind_le hload fun sibling =>
            @ih sibling 0 (skip - (node.recordCount - index))
          exact Nat.le_trans hle (Nat.le_of_eq (Nat.add_comm 1 hops))

theorem length_loadsDown_le (dev : Device) (tree : Tree)
    (order : KeyedRecord → Except Error Ordering) :
    (tree.loadsDown dev order).length ≤ maxDepth := by
  rw [loadsDown]
  split
  · exact Nat.zero_le _
  · exact length_nodes_descend_le _ _

theorem length_loadsAlong_le (dev : Device) (tree : Tree)
    (order : KeyedRecord → Except Error Ordering) (skip : Nat) :
    (tree.loadsAlong dev order skip).length ≤ tree.totalNodes.toNat - 1 := by
  rw [loadsAlong]
  split
  · exact Nat.zero_le _
  · split
    · exact Nat.zero_le _
    · exact length_nodes_advance_le _ _

/-! ## Counting the records -/

/-- A search that succeeds was not told to go on over more records than so many
nodes can have. -/
theorem skip_lt_of_search {skip : Nat} {hit : Hit}
    (h : (tree.search dev order skip).result = .ok hit) :
    skip < 65535 * max tree.totalNodes.toNat 1 := by
  obtain ⟨-, start, hstart, hadvance⟩ := exists_start_of_search h
  obtain ⟨rest, -, hlength, hhit, -⟩ := exists_chain_of_advance tree.id number_of_readNode
    (Nat.le_of_lt (starts_of_descend hstart).lt) hadvance
  obtain ⟨hplace, -⟩ := List.getElem?_eq_some_iff.mp hhit
  have hrecords := length_records_le (start.node :: rest)
  rw [List.length_cons] at hrecords
  omega

end Tree

end HfsPlus
