import HfsPlus.Tree.Basic
import HfsPlus.Tree.Bisect

/-!
# Searching a tree

A search goes down from the root. In an index node it follows the record with the largest key that
is not above the one looked for; in a leaf only an equal key will do. From the record found it may
go on over a number of further records, from leaf to leaf along the forward links.

The links come from the volume and may lead anywhere, in circles too, so both walks are bounded: no
tree has more than `maxDepth` levels, and no walk along the leaves meets more nodes than the tree
has. How nodes are loaded and how keys compare are parameters. A search knows records only by
their order to the key it looks for, so the same search serves any tree.
-/

namespace HfsPlus

/-- A record of a node. -/
structure Hit where
  /-- The node. -/
  node : Node
  /-- The index of the record in the node. -/
  index : Nat
deriving DecidableEq, Repr

/-- The record itself, taken apart into key and data. -/
def Hit.keyedRecord (hit : Hit) : Except Error KeyedRecord := hit.node.keyedRecord hit.index

namespace Tree

/-- More levels than any tree has. -/
def maxDepth : Nat := 16

/-- How the record at an index of a node stands to the key that is looked for. -/
def probe (order : KeyedRecord → Except Error Ordering) (node : Node) (index : Nat) :
    Except Error Ordering := do
  order (← node.keyedRecord index)

/-- The node below a record of an index node. -/
def childAt (node : Node) (index : Nat) : Except Error UInt32 := do
  (← node.keyedRecord index).child

/-- Goes down from a node, through at most `levels` nodes, to the leaf record that is equal. -/
def descend (load : UInt32 → Run Node) (order : KeyedRecord → Except Error Ordering)
    (id : CatalogId) : (levels : Nat) → (number : UInt32) → Run Hit
  | 0, _ => Run.fail (.corrupted (.tooDeep id maxDepth))
  | levels + 1, number => do
    let node ← load number
    match ← node.kind with
    | .leaf =>
      match ← bisect (probe order node) 0 node.recordCount with
      | .found index => return { node, index }
      | .gap _ => Run.fail .notFound
    | .index =>
      if node.recordCount = 0 then
        Run.fail (.corrupted (.emptyIndexNode number))
      else
        match ← bisect (probe order node) 0 node.recordCount with
        | .gap 0 => Run.fail .notFound
        | .found index | .gap (index + 1) =>
          let child ← childAt node index
          Run.note (.descending id child)
          descend load order id levels child
    | kind => Run.fail (.corrupted (.unsearchableNode kind number))

/-- Goes on over `skip` records from record `index` of a leaf, loading at most `hops` further
leaves. -/
def advance (load : UInt32 → Run Node) (tree : Tree) :
    (hops : Nat) → (node : Node) → (index skip : Nat) → Run Hit
  | hops, node, index, skip =>
    let remaining := node.recordCount - index
    if skip < remaining then
      return { node, index := index + skip }
    else
      let next := node.forwardLink
      if next = 0 then
        Run.fail .notFound
      else if next = node.number then
        Run.fail (.corrupted (.selfLink next))
      else
        match hops with
        | 0 => Run.fail (.corrupted (.endlessSiblings tree.id tree.totalNodes))
        | hops + 1 => do
          let sibling ← load next
          if (← sibling.kind) ≠ .leaf then
            Run.fail (.corrupted (.siblingNotLeaf next))
          else if sibling.recordCount = 0 then
            Run.fail (.corrupted (.emptySibling next))
          else
            advance load tree hops sibling 0 (skip - remaining)

/-- Finds the record that is equal, and goes on over `skip` further records, with nodes loaded by
`load`. -/
def searchWith (load : UInt32 → Run Node) (tree : Tree)
    (order : KeyedRecord → Except Error Ordering) (skip : Nat) : Run Hit := do
  if tree.rootNode = 0 then
    Run.fail .notFound
  else
    let hit ← descend load order tree.id maxDepth tree.rootNode
    advance load tree (tree.totalNodes.toNat - 1) hit.node hit.index skip

/-- Finds the record that is equal, and goes on over `skip` further records. -/
def search (dev : Device) (tree : Tree) (order : KeyedRecord → Except Error Ordering)
    (skip : Nat) : Run Hit :=
  searchWith (tree.readNode dev) tree order skip

end Tree

end HfsPlus
