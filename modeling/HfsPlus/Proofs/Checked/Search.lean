import HfsPlus.Proofs.Checked.Node
import HfsPlus.Proofs.Tree.Circle

/-!
# Searching a tree, checked

The search in a node keeps two indices in signed words, and the upper one starts
at the last record, which is −1 where there is none; it does not sink below that.
Its answer is the last record that was not found greater, and `Position.last` says
which that is. Along the leaves three counters run: the record, sixteen bits, which
is moved only as far as the leaf has records; the count of those still to be
passed, 64 bits, which only sinks; and the number of hops, 32 bits, which is
compared to the number of the tree's nodes before there is another.
-/

namespace HfsPlus

/-- The last record that is not greater, −1 if there is none, and whether it is
equal. -/
def Position.last : Position → Bool × Int
  | .found index => (true, index)
  | .gap smaller => (false, smaller - 1)

/-- Whatever a search finds lies in a node that was loaded. -/
theorem Tree.size_lt_of_search {dev : Device} {tree : Tree}
    {order : KeyedRecord → Except Error Ordering} {skip : Nat} {hit : Hit}
    (h : (tree.search dev order skip).result = .ok hit) :
    hit.node.data.size < UInt64.size := by
  obtain ⟨-, start, hstart, hadvance⟩ := exists_start_of_search h
  have hstarts := starts_of_descend hstart
  obtain ⟨rest, hchain, -, hhit, -⟩ := exists_chain_of_advance tree.id
    number_of_readNode (Nat.le_of_lt hstarts.lt) hadvance
  obtain ⟨leaf, hleaf, hmem⟩ := List.mem_flatMap.mp (List.mem_of_getElem? hhit)
  obtain ⟨rfl, -⟩ := mem_hits.mp hmem
  exact size_lt_of_readNode (hchain.loads_of_mem number_of_readNode
    (hstarts.loads number_of_readNode) _ hleaf)

namespace Checked

/-! ## In a node -/

/-- How record `index` stands to what is searched for. -/
def probe (order : KeyedRecord → Checked Ordering) (node : Node) (index : Nat) :
    Checked Ordering := do
  order (← keyedRecord node index)

/-- Searches the records from `lo` up to, and with, `hi`. -/
def bisect (probe : Nat → Checked Ordering) :
    (rounds : Nat) → (lo hi : Int) → Checked (Bool × Int)
  | 0, _, _ => throw .endless
  | rounds + 1, lo, hi =>
    if lo ≤ hi then do
      let sum ← signed (lo + hi)
      let mid ← signed (sum.tdiv 2)
      match ← probe (truncate mid) with
      | .lt => bisect probe rounds (← signed (mid + 1)) hi
      | .gt => bisect probe rounds lo (← signed (mid - 1))
      | .eq => return (true, mid)
    else
      return (false, hi)

/-- The node below a record of an index node. -/
def childAt (node : Node) (index : Nat) : Checked UInt32 := do
  child (← keyedRecord node index)

/-- Where the search goes from a node. -/
def turn (order : KeyedRecord → Checked Ordering) (number : UInt32) (node : Node) :
    Checked Tree.Turn := do
  let kind ← node.kind
  let count := node.recordCount
  if kind = .header ∨ kind = .map then
    Run.fail (.corrupted (.unsearchableNode kind number))
  else if kind = .index ∧ count = 0 then
    Run.fail (.corrupted (.emptyIndexNode number))
  else if count = 0 then
    Run.fail .notFound
  else
    let top ← signed (count - 1)
    let (equal, last) ← bisect (probe order node) (count + 1) 0 top
    if equal ∧ kind = .leaf then
      return .hit (truncate last)
    else if kind ≠ .index ∨ last < 0 then
      Run.fail .notFound
    else
      return .down (← childAt node (truncate last))

/-! ## In a tree -/

/-- Goes down from node `number` to the leaf with the record that is searched for. -/
def descend (dev : Device) (tree : Tree) (order : KeyedRecord → Checked Ordering) :
    (levels : Nat) → (number : UInt32) → Checked Hit
  | 0, _ => Run.fail (.corrupted (.tooDeep tree.id Tree.maxDepth))
  | levels + 1, number => do
    let node ← readNode dev tree number
    match ← turn order number node with
    | .hit index => return { node, index }
    | .down child =>
      Run.note (.descending tree.id child)
      descend dev tree order levels child

/-- Loads the leaf that a forward link names. It is a leaf, and not an empty one. -/
def readSibling (dev : Device) (tree : Tree) (next : UInt32) : Checked Node := do
  let sibling ← readNode dev tree next
  if (← sibling.kind) ≠ .leaf then
    Run.fail (.corrupted (.siblingNotLeaf next))
  else if sibling.recordCount = 0 then
    Run.fail (.corrupted (.emptySibling next))
  else
    return sibling

/-- Goes on over `skip` records from record `record` of a leaf. -/
def skipForward (dev : Device) (tree : Tree) :
    (rounds : Nat) → (node : Node) → (record skip hops : Nat) → Checked Hit
  | 0, _, _, _, _ => throw .endless
  | rounds + 1, node, record, skip, hops =>
    let remaining := node.recordCount - record
    if skip < remaining then do
      return { node, index := ← add UInt16.size record (truncate skip) }
    else do
      let skip ← sub skip remaining
      let next := node.forwardLink
      if next = 0 then
        Run.fail .notFound
      else if next = node.number then
        Run.fail (.corrupted (.selfLink next))
      else
        let hops ← add UInt32.size hops 1
        if tree.totalNodes.toNat ≤ hops then
          Run.fail (.corrupted (.endlessSiblings tree.id tree.totalNodes))
        else
          let sibling ← readSibling dev tree next
          skipForward dev tree rounds sibling 0 skip hops

/-- The record `skip` places behind the one that is searched for. -/
def search (dev : Device) (tree : Tree) (order : KeyedRecord → Checked Ordering)
    (skip : Nat) : Checked Hit :=
  if tree.rootNode = 0 then
    Run.fail .notFound
  else do
    let hit ← descend dev tree order Tree.maxDepth tree.rootNode
    skipForward dev tree (tree.totalNodes.toNat + 1) hit.node hit.index skip 0

/-! ## No traps -/

theorem bisect_eq {probe : Nat → Checked Ordering} {probe' : Nat → Except Error Ordering}
    (hprobe : ∀ i, probe i = liftM (probe' i)) : ∀ {rounds lo hi : Nat}, lo ≤ hi →
      hi ≤ 65535 → hi - lo < rounds →
      bisect probe rounds lo (hi - 1) =
        liftM (Position.last <$> HfsPlus.bisect probe' lo hi) := by
  -- The last record of the range is the one before its end, so −1 where the end is 0.
  intro rounds
  induction rounds with
  | zero =>
    intro lo hi _ _ hrounds
    exact absurd hrounds (Nat.not_lt_zero _)
  | succ rounds ih =>
    intro lo hi hle hmax hrounds
    rw [bisect, HfsPlus.bisect]
    by_cases hlt : lo < hi
    · generalize hmid : (lo + hi - 1) / 2 = mid
      have hsum : (lo : Int) + (hi - 1) = ((lo + hi - 1 : Nat) : Int) := by omega
      have hdiv : ((lo + hi - 1 : Nat) : Int).tdiv 2 = mid := by rw [← hmid]; rfl
      rw [if_pos (by omega), if_pos hlt, hsum, signed_eq_ok (by omega) (by omega), liftM_ok_bind,
        hdiv, signed_eq_ok (by omega) (by omega), liftM_ok_bind, truncate_natCast (by omega),
        hprobe]
      simp only []
      cases probe' mid with
      | error e => rfl
      | ok answer =>
        refine (pure_bind answer _).trans ?_
        cases answer with
        | lt =>
          simp only []
          rw [signed_eq_ok (by omega) (by omega), liftM_ok_bind]
          show bisect probe rounds ((mid + 1 : Nat) : Int) (hi - 1) = _
          exact ih (by omega) hmax (by omega)
        | eq => rfl
        | gt =>
          simp only []
          rw [signed_eq_ok (by omega) (by omega), liftM_ok_bind]
          exact ih (by omega) (by omega) (by omega)
    · obtain rfl : lo = hi := by omega
      rw [if_neg (by omega), if_neg (Nat.lt_irrefl _)]
      rfl

theorem childAt_eq {node : Node} (hdata : node.data.size < UInt64.size) (index : Nat) :
    childAt node index = liftM (Tree.childAt node index) := by
  rw [childAt, Tree.childAt, keyedRecord_eq hdata]
  exact except_bind_eq_liftM fun r _ => child_eq r

section Equations

variable {order : KeyedRecord → Checked Ordering} {order' : KeyedRecord → Except Error Ordering}
  (horder : ∀ r, order r = liftM (order' r)) {node : Node}
include horder

theorem probe_eq (hdata : node.data.size < UInt64.size) (index : Nat) :
    probe order node index = liftM (Tree.probe order' node index) := by
  rw [probe, Tree.probe, keyedRecord_eq hdata]
  exact except_bind_eq_liftM fun r _ => horder r

theorem turn_eq (number : UInt32) (hdata : node.data.size < UInt64.size) :
    turn order number node = liftM (Tree.turn order' number node) := by
  rw [turn, Tree.turn]
  refine except_bind_eq_liftM fun kind hkind => ?_
  have hcount : node.recordCount < 65536 := node.descriptor.recordCount.toNat_lt
  have hbisect : bisect (probe order node) (node.recordCount + 1) 0 (node.recordCount - 1) =
      liftM (Position.last <$> HfsPlus.bisect (Tree.probe order' node) 0 node.recordCount) :=
    bisect_eq (probe_eq horder hdata) (Nat.zero_le _) (by omega) (by omega)
  cases kind with
  | leaf =>
    simp only [reduceCtorEq, or_self, false_and, if_false]
    by_cases hempty : node.recordCount = 0
    · rw [if_pos hempty, hempty, bisect_self]
      rfl
    · rw [if_neg hempty, signed_eq_ok (by omega) (by omega), liftM_ok_bind, hbisect]
      refine except_map_bind_eq_liftM fun position hposition => ?_
      cases position with
      | found i =>
        have hi := (equal_of_bisect hposition).1
        simp only [Position.last, truncate_natCast (Nat.lt_trans hi hcount)]
        rfl
      | gap smaller => rfl
  | index =>
    simp only [reduceCtorEq, or_self, true_and, if_false]
    by_cases hempty : node.recordCount = 0
    · rw [if_pos hempty, if_pos hempty]
      rfl
    · rw [if_neg hempty, if_neg hempty, if_neg hempty, signed_eq_ok (by omega) (by omega),
        liftM_ok_bind, hbisect]
      refine except_map_bind_eq_liftM fun position hposition => ?_
      rcases position with i | _ | i
      · have hi := (equal_of_bisect hposition).1
        simp only [Position.last, truncate_natCast (Nat.lt_trans hi hcount)]
        rw [if_neg (by simp), if_neg (by simp), childAt_eq hdata]
        exact except_bind_eq_liftM fun child _ => rfl
      · rfl
      · have hi := le_of_bisect_eq_gap (Nat.zero_le _) hposition
        have hlast : ((i + 1 : Nat) : Int) - 1 = i := by omega
        simp only [Position.last, hlast,
          truncate_natCast (Nat.lt_of_lt_of_le hi (Nat.le_of_lt hcount))]
        rw [if_neg (by simp), if_neg (by simp), childAt_eq hdata]
        exact except_bind_eq_liftM fun child _ => rfl
  | header => rfl
  | map => rfl

theorem descend_eq (dev : Device) (tree : Tree) (levels : Nat) : ∀ number : UInt32,
    descend dev tree order levels number =
      liftM (Tree.descend (tree.readNode dev) order' tree.id levels number) := by
  induction levels with
  | zero =>
    intro number
    rfl
  | succ levels ih =>
    intro number
    rw [descend, Tree.descend_succ, readNode_eq]
    refine bind_eq_liftM fun node hnode => ?_
    rw [turn_eq horder number (Tree.size_lt_of_readNode hnode)]
    refine bind_eq_liftM fun t _ => ?_
    cases t with
    | hit index => rfl
    | down child =>
      simp only [ih]
      rfl

end Equations

theorem readSibling_eq (dev : Device) (tree : Tree) (next : UInt32) :
    readSibling dev tree next = liftM (Tree.readSibling (tree.readNode dev) next) := by
  rw [readSibling, Tree.readSibling, readNode_eq]
  refine bind_eq_liftM fun sibling _ => bind_eq_liftM fun kind _ => ?_
  split
  · rfl
  · split <;> rfl

theorem skipForward_eq (dev : Device) (tree : Tree) : ∀ {rounds : Nat} {node : Node}
    {record skip hops : Nat}, hops = 0 ∨ hops < tree.totalNodes.toNat →
      tree.totalNodes.toNat - hops < rounds →
      skipForward dev tree rounds node record skip hops =
        liftM (Tree.advance (tree.readNode dev) tree (tree.totalNodes.toNat - 1 - hops)
          node record skip) := by
  -- The count of the hops that were made, and of those that may still be, add up: of
  -- the two loops one counts up and one down.
  intro rounds
  induction rounds with
  | zero =>
    intro node record skip hops _ hrounds
    exact absurd hrounds (Nat.not_lt_zero _)
  | succ rounds ih =>
    intro node record skip hops hhops hrounds
    have hcount : node.recordCount < 65536 := node.descriptor.recordCount.toNat_lt
    have htotal : tree.totalNodes.toNat < UInt32.size := tree.totalNodes.toNat_lt
    have hword : UInt16.size = 65536 := rfl
    have hpositive : 1 < UInt32.size := by decide
    rw [skipForward, Tree.advance_eq]
    by_cases hskip : skip < node.recordCount - record
    · rw [if_pos hskip, if_pos hskip, truncate_natCast (by omega), add_eq_ok (by omega),
        liftM_ok_bind]
      rfl
    · rw [if_neg hskip, if_neg hskip, sub_eq_ok (Nat.not_lt.mp hskip), liftM_ok_bind]
      simp only []
      by_cases hlink : node.forwardLink = 0
      · rw [if_pos hlink, if_pos hlink]
        rfl
      by_cases hself : node.forwardLink = node.number
      · rw [if_neg hlink, if_neg hlink, if_pos hself, if_pos hself]
        rfl
      rw [if_neg hlink, if_neg hlink, if_neg hself, if_neg hself, add_eq_ok (by omega),
        liftM_ok_bind]
      by_cases hlast : tree.totalNodes.toNat ≤ hops + 1
      · rw [if_pos hlast, show tree.totalNodes.toNat - 1 - hops = 0 by omega]
        rfl
      · rw [if_neg hlast, show tree.totalNodes.toNat - 1 - hops =
          tree.totalNodes.toNat - 1 - (hops + 1) + 1 by omega, readSibling_eq]
        exact bind_eq_liftM fun sibling _ => ih (.inr (by omega)) (by omega)

theorem search_eq {order : KeyedRecord → Checked Ordering}
    {order' : KeyedRecord → Except Error Ordering} (horder : ∀ r, order r = liftM (order' r))
    (dev : Device) (tree : Tree) (skip : Nat) :
    search dev tree order skip = liftM (tree.search dev order' skip) := by
  rw [search, Tree.search, Tree.searchWith]
  split
  · rfl
  · rw [descend_eq horder]
    exact bind_eq_liftM fun hit _ => skipForward_eq dev tree (.inl rfl) (by omega)

end Checked

end HfsPlus
