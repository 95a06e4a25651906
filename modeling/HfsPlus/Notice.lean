import HfsPlus.Entry
import HfsPlus.Text.Quoted

/-!
# Notices

While a volume is read, what happens is put on record for whoever asks: which nodes a search loads,
what a lookup finds, what is odd about a volume. A `Notice` is the event; its level says how much
interest a reader must have, and its wording is made by `Notice.message` alone.
-/

namespace HfsPlus

/-- How much a notice matters. -/
inductive Level where
  /-- Something will not work. -/
  | warn
  /-- What an operation found. -/
  | debug
  /-- Each step of a search. -/
  | trace
deriving DecidableEq, Repr

namespace Level

/-- The level's name. -/
def name : Level → String
  | .warn => "WARN"
  | .debug => "DEBUG"
  | .trace => "TRACE"

/-- How often a reader must ask for more to see notices of this level. -/
def verbosity : Level → Nat
  | .warn => 0
  | .debug => 1
  | .trace => 2

end Level

/-- Something worth telling about the reading of a volume. -/
inductive Notice where
  /-- A block of a fork lies in an extent that the fork does not carry itself. -/
  | beyondExtentRecord (logicalBlock : UInt32)
  /-- The volume header has the signature of another file system. -/
  | foreignSignature (code : UInt16)
  /-- A tree's header was read. -/
  | treeOpened (tree : CatalogId) (header : TreeHeader)
  /-- A volume was mounted. -/
  | mounted (totalBlocks blockSize freeBlocks : UInt32)
  /-- A node's bytes were read. -/
  | nodeLoaded (tree : CatalogId) (node : UInt32)
  /-- A search goes on one level below. -/
  | descending (tree : CatalogId) (node : UInt32)
  /-- A record in this node has a type that is not known. -/
  | unknownRecord (code : UInt16) (node : UInt32)
  /-- A lookup in a folder found an entry. -/
  | lookedUp (folder : CatalogId) (entry : Entry)
  /-- The folder has no entry at this position or behind it. -/
  | endOfFolder (folder : CatalogId) (position : Nat)
deriving DecidableEq, Repr

/-- A text moved to the right end of a column of `width` characters. A longer text is left as it
is. -/
def Text.alignRight (width : Nat) (s : String) : String :=
  String.ofList (List.replicate (width - s.length) ' ') ++ s

namespace Notice

/-- How much the notice matters. -/
def level : Notice → Level
  | .beyondExtentRecord _ => .warn
  | .foreignSignature _ | .treeOpened _ _ | .mounted _ _ _ | .unknownRecord _ _
  | .lookedUp _ _ => .debug
  | .nodeLoaded _ _ | .descending _ _ | .endOfFolder _ _ => .trace

/-- The notice in words. -/
def message : Notice → String
  | .beyondExtentRecord logicalBlock =>
    s!"logical block {logicalBlock} lies beyond the inline extent record"
  | .foreignSignature code => "signature 0x" ++ Text.hexDigits 4 code.toNat ++ " is not HFS+"
  | .treeOpened tree header =>
    s!"B-tree {tree}: root node {header.rootNode}, node size {header.nodeSize}, " ++
      s!"depth {header.treeDepth}, {header.totalNodes} nodes"
  | .mounted totalBlocks blockSize freeBlocks =>
    s!"mounted HFS+ volume: {totalBlocks} blocks of {blockSize} bytes, {freeBlocks} free"
  | .nodeLoaded tree node => s!"B-tree {tree}: loaded node {node}"
  | .descending tree node => s!"B-tree {tree}: descending to node {node}"
  | .unknownRecord code node => s!"catalog record type {code} in node {node}"
  | .lookedUp folder entry =>
    let quotedName := Text.Quoted.encode entry.displayName
    s!"lookup {folder}/{quotedName}: id {entry.id} ({entry.kind.name})"
  | .endOfFolder folder position => s!"iterate {folder}: end at position {position}"

/-- The notice as a line of the log: its level, right-aligned, and its wording. -/
def line (n : Notice) : String :=
  let levelName := Text.alignRight 5 n.level.name
  s!"[{levelName}] {n.message}"

end Notice

end HfsPlus
