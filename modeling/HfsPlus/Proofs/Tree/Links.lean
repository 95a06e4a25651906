import HfsPlus.Proofs.Fork.Contents
import HfsPlus.Proofs.Format.Structures
import HfsPlus.Proofs.Tree.Bounds
import HfsPlus.Proofs.Tree.Offsets
import Mathlib.Data.List.Chain

/-!
# A plain search does not look at links

Of the fourteen bytes in front of a node a search needs three on its way down: the
kind and the number of the records. The links are for going on from a record that
was found, and a plain search does not go on. It does end in the loop that would,
but the record that was found is one of its leaf, so the loop is left before it
looks for the next leaf (`searchWith_zero`).

So two devices that differ only in links, heights and reserved fields cannot be told
apart by plain searches, however damaged their nodes are. The proof walks down both
of them at once. At each level the nodes are alike (`SameButLinks`), so all that is
asked of them has the same answer, and so has the turn that the search takes.
-/

namespace HfsPlus

/-! ## Nodes that differ in links -/

/-- The bytes of a node in which its links are, its height, and the reserved field. -/
def NodeDescriptor.IsUnread (place : Nat) : Prop :=
  place < 8 ∨ place = 9 ∨ place = 12 ∨ place = 13

instance (place : Nat) : Decidable (NodeDescriptor.IsUnread place) :=
  inferInstanceAs (Decidable (_ ∨ _ ∨ _ ∨ _))

theorem NodeDescriptor.not_isUnread_iff {place : Nat} :
    ¬ IsUnread place ↔ place = 8 ∨ place = 10 ∨ place = 11 ∨ 14 ≤ place := by
  rw [IsUnread]
  omega

/-- How the read of a descriptor fails depends on how many bytes there are. -/
theorem NodeDescriptor.read_error_congr {data data' : Bytes} (h : data'.length = data.length)
    {e : Error} : format.read data' = .error e ↔ format.read data = .error e := by
  rw [Format.read_eq_error_iff, Format.read_eq_error_iff, h]

/-- Two buffers for a node differ in these bytes only. -/
structure SameButLinks (data data' : Bytes) : Prop where
  length_eq : data'.length = data.length
  getElem?_eq : ∀ place < data.length, ¬ NodeDescriptor.IsUnread place →
    data'[place]? = data[place]?

namespace SameButLinks

variable {data data' : Bytes}

theorem byte_eq (h : SameButLinks data data') {place : Nat}
    (hread : ¬ NodeDescriptor.IsUnread place) : data'[place]? = data[place]? := by
  by_cases hin : place < data.length
  · exact h.getElem?_eq place hin hread
  · have hlength := h.length_eq
    rw [List.getElem?_eq_none (by omega), List.getElem?_eq_none (by omega)]

theorem field_eq (h : SameButLinks data data') {offset width : Nat}
    (hread : ∀ place, offset ≤ place → place < offset + width →
      ¬ NodeDescriptor.IsUnread place) :
    BigEndian.field data' offset width = BigEndian.field data offset width := by
  have hsame : (data'.drop offset).take width = (data.drop offset).take width := by
    ext1 i
    rw [List.getElem?_take, List.getElem?_take]
    split
    · rw [List.getElem?_drop, List.getElem?_drop, h.byte_eq (hread _ (by omega) (by omega))]
    · rfl
  rw [BigEndian.field, BigEndian.field, hsame]

theorem read_descriptor (h : SameButLinks data data') :
    EndsAlike (fun d d' => d'.kind = d.kind ∧ d'.recordCount = d.recordCount)
      (NodeDescriptor.format.read data) (NodeDescriptor.format.read data') := by
  cases hread : NodeDescriptor.format.read data with
  | error e =>
    rw [(NodeDescriptor.read_error_congr h.length_eq).mpr hread]
    exact .failed e
  | ok d =>
    cases hread' : NodeDescriptor.format.read data' with
    | error e =>
      rw [(NodeDescriptor.read_error_congr h.length_eq).mp hread'] at hread
      cases hread
    | ok d' =>
      obtain ⟨hkind, hcount⟩ := NodeDescriptor.fields_of_read hread
      obtain ⟨hkind', hcount'⟩ := NodeDescriptor.fields_of_read hread'
      have hkindSame : BigEndian.field data' 8 1 = BigEndian.field data 8 1 :=
        h.field_eq fun place hfrom hto => NodeDescriptor.not_isUnread_iff.mpr (by omega)
      have hcountSame : BigEndian.field data' 10 2 = BigEndian.field data 10 2 :=
        h.field_eq fun place hfrom hto => NodeDescriptor.not_isUnread_iff.mpr (by omega)
      exact .ended ⟨by rw [hkind, hkind', hkindSame], by rw [hcount, hcount', hcountSame]⟩

end SameButLinks

namespace Node

/-- Two nodes differ in these bytes only. -/
structure SameButLinks (node node' : Node) : Prop where
  number_eq : node'.number = node.number
  kind_eq : node'.descriptor.kind = node.descriptor.kind
  recordCount_eq : node'.descriptor.recordCount = node.descriptor.recordCount
  size_eq : node'.data.size = node.data.size
  getElem?_eq : ∀ place, NodeDescriptor.size ≤ place → node'.data[place]? = node.data[place]?

namespace SameButLinks

variable {node node' : Node}

theorem node_kind_eq (h : SameButLinks node node') : node'.kind = node.kind := by
  rw [kind, kind, h.kind_eq, h.number_eq]

theorem node_recordCount_eq (h : SameButLinks node node') :
    node'.recordCount = node.recordCount :=
  congrArg UInt16.toNat h.recordCount_eq

theorem extract_eq (h : SameButLinks node node') {start : Nat}
    (hstart : NodeDescriptor.size ≤ start) (stop : Nat) :
    node'.data.extract start stop = node.data.extract start stop := by
  refine Array.ext_getElem? fun i => ?_
  rw [Array.getElem?_extract, Array.getElem?_extract, h.size_eq, h.getElem?_eq _ (by omega)]

theorem offset_eq (h : SameButLinks node node') (index : Nat) :
    node'.offset index = node.offset index := by
  simp only [offset, h.size_eq, h.number_eq]
  split
  · rfl
  · rw [h.extract_eq (by omega)]

theorem record_eq (h : SameButLinks node node') (index : Nat) :
    node'.record index = node.record index := by
  rw [record, record, h.node_recordCount_eq, h.number_eq, h.offset_eq, h.offset_eq]
  cases hstart : node.offset index with
  | error e => rfl
  | ok start =>
    obtain ⟨-, hfrom, -⟩ := offset_eq_ok_iff.mp hstart
    simp only [bind, Except.bind, h.extract_eq hfrom]

theorem keyedRecord_eq (h : SameButLinks node node') (index : Nat) :
    node'.keyedRecord index = node.keyedRecord index := by
  rw [keyedRecord, keyedRecord, h.record_eq]

theorem turn_eq (h : SameButLinks node node') (order : KeyedRecord → Except Error Ordering)
    (number : UInt32) : Tree.turn order number node' = Tree.turn order number node := by
  have hprobe : Tree.probe order node' = Tree.probe order node := by
    funext index
    rw [Tree.probe, Tree.probe, h.keyedRecord_eq]
  have hchild : Tree.childAt node' = Tree.childAt node := by
    funext index
    rw [Tree.childAt, Tree.childAt, h.keyedRecord_eq]
  rw [Tree.turn, Tree.turn, h.node_kind_eq, h.node_recordCount_eq, hprobe, hchild]

end SameButLinks

theorem endsAlike_parse {data data' : Bytes} (h : HfsPlus.SameButLinks data data')
    (number : UInt32) :
    EndsAlike SameButLinks (parse number data) (parse number data') := by
  refine h.read_descriptor.bind_of_ok fun d d' _ hsame => ?_
  obtain ⟨hkind, hcount⟩ := hsame
  have hnode : SameButLinks ⟨number, d, data.toArray⟩ ⟨number, d', data'.toArray⟩ :=
    ⟨rfl, hkind, hcount, h.length_eq, fun place hplace => by
      rw [List.getElem?_toArray, List.getElem?_toArray]
      exact h.byte_eq (NodeDescriptor.not_isUnread_iff.mpr (.inr (.inr (.inr hplace))))⟩
  simp only [hnode.offset_eq]
  refine (EndsAlike.refl _).bind_of_ok fun first first' _ hfirst => ?_
  subst hfirst
  split
  · exact .failed _
  · exact .ended hnode

end Node

namespace Tree

variable {load load' : UInt32 → Run Node} {order : KeyedRecord → Except Error Ordering}
  {dev dev' : Device} {tree : Tree}

/-! ## A plain search -/

/-- A search that is not told to go on ends where it has come down to. -/
theorem searchWith_zero (load : UInt32 → Run Node) (tree : Tree)
    (order : KeyedRecord → Except Error Ordering) :
    searchWith load tree order 0 =
      if tree.rootNode = 0 then Run.fail .notFound
      else descend load order tree.id maxDepth tree.rootNode := by
  rw [searchWith]
  split
  · rfl
  · -- The loop that follows links is left at once: the record is one of its leaf.
    refine (Run.bind_congr_of_ok fun hit hhit => ?_).trans (bind_pure _)
    have hlt := (starts_of_descend hhit).lt
    rw [advance_eq, if_pos (by omega)]
    rfl

/-! ## The nodes on the way down -/

theorem nodes_descend_succ (load : UInt32 → Run Node) (id : CatalogId) (levels : Nat)
    (number : UInt32) :
    (descend (recording load id) order id (levels + 1) number).nodes =
      number :: match (load number).result.bind (turn order number) with
        | .ok (.down child) => (descend (recording load id) order id levels child).nodes
        | _ => [] := by
  have hresult := result_recording load id number
  rw [descend_succ]
  cases hload : (load number).result with
  | error e =>
    rw [Run.nodes_bind_of_error (hresult.trans hload), nodes_recording]
    rfl
  | ok node =>
    rw [Run.nodes_bind_of_ok (hresult.trans hload), nodes_recording]
    simp only [Except.bind]
    cases turn order number node with
    | error e => rfl
    | ok t =>
      cases t with
      | hit index => rfl
      | down child => rfl

/-- A search starts at the root, and each node behind it is below the one in front. -/
theorem isChain_nodes_descend (load : UInt32 → Run Node) (id : CatalogId) :
    ∀ {levels : Nat} {number : UInt32},
    (∀ first ∈ (descend (recording load id) order id levels number).nodes.head?,
      first = number) ∧
    (descend (recording load id) order id levels number).nodes.IsChain (Below load · 1 ·) := by
  intro levels
  induction levels with
  | zero =>
    intro number
    refine ⟨fun first hmem => ?_, .nil⟩
    cases hmem
  | succ levels ih =>
    intro number
    rw [nodes_descend_succ]
    refine ⟨by simp, ?_⟩
    split
    · next child hturn =>
      obtain ⟨node, hload, hturn⟩ := exists_of_bind_eq_ok hturn
      obtain ⟨hkind, i, hi, hchild⟩ := index_of_turn_eq_down hturn
      obtain ⟨hfirst, hchain⟩ := @ih child
      refine List.isChain_cons.mpr ⟨fun first hmem => ?_, hchain⟩
      rw [hfirst first hmem]
      exact .child hload hkind hi hchild .top
    · exact .singleton _

theorem isChain_loads_zero (dev : Device) (tree : Tree)
    (order : KeyedRecord → Except Error Ordering) :
    (tree.loads dev order 0).length ≤ maxDepth ∧
    (∀ first ∈ (tree.loads dev order 0).head?, first = tree.rootNode) ∧
    (tree.loads dev order 0).IsChain (Below (tree.readNode dev) · 1 ·) := by
  rw [loads, searchWith_zero]
  split
  · refine ⟨Nat.zero_le _, fun first hmem => ?_, .nil⟩
    cases hmem
  · exact ⟨length_nodes_descend_le _ _, isChain_nodes_descend _ _⟩

/-! ## Searches on two devices -/

/-- The same bytes are found, at the same index of the node of the same number. -/
def FindsSame (hit hit' : Hit) : Prop :=
  hit'.node.number = hit.node.number ∧ hit'.index = hit.index ∧
    ∃ bytes, hit.node.record hit.index = .ok bytes ∧ hit'.node.record hit'.index = .ok bytes

theorem findsSame_of_alike {hit hit' : Hit} (h : HitsAlike Node.SameButLinks hit hit')
    (hread : probe order hit.node hit.index = .ok .eq) : FindsSame hit hit' := by
  obtain ⟨keyed, hkeyed, -⟩ := exists_of_bind_eq_ok hread
  obtain ⟨bytes, hbytes, -⟩ := exists_of_bind_eq_ok hkeyed
  refine ⟨h.node.number_eq, h.index_eq, bytes, hbytes, ?_⟩
  rw [h.index_eq, h.node.record_eq, hbytes]

/-- Whether two devices give the nodes of a tree alike, but for these bytes. -/
def SameNodes (dev dev' : Device) (tree : Tree) : Prop :=
  ∀ number : UInt32, EndsAlike SameButLinks
    (tree.fork.readAt dev (number.toNat * tree.nodeSize.toNat) tree.nodeSize.toNat).result
    (tree.fork.readAt dev' (number.toNat * tree.nodeSize.toNat) tree.nodeSize.toNat).result

theorem SameNodes.endsAlike_readNode (h : SameNodes dev dev' tree) (number : UInt32) :
    EndsAlike Node.SameButLinks (tree.readNode dev number).result
      (tree.readNode dev' number).result := by
  rw [result_readNode, result_readNode]
  exact (h number).bind_of_ok fun _ _ _ hsame => Node.endsAlike_parse hsame number

/-- With any loaders, two searches that are not told to go on are in step. -/
theorem inStep_searchWith_zero (load load' : UInt32 → Run Node) (tree : Tree)
    (order : KeyedRecord → Except Error Ordering) :
    Run.InStep load load' Node.SameButLinks (fun _ => True) (HitsAlike Node.SameButLinks)
      (searchWith load tree order 0) (searchWith load' tree order 0) := by
  rw [searchWith_zero, searchWith_zero]
  split
  · exact .fail trivial
  · exact inStep_descend tree.id (fun hsame => hsame.turn_eq order) (fun _ => trivial)
      fun _ _ _ _ => trivial

theorem loads_eq_of_sameNodes (h : SameNodes dev dev' tree)
    (order : KeyedRecord → Except Error Ordering) :
    tree.loads dev' order 0 = tree.loads dev order 0 := by
  refine (inStep_searchWith_zero (recording (tree.readNode dev) tree.id)
    (recording (tree.readNode dev') tree.id) tree order).filterMap_events (fun number => ?_)
    fun number => (nodes_recording _ _ number).trans (nodes_recording _ _ number).symm
  rw [result_recording, result_recording]
  exact h.endsAlike_readNode number

theorem endsAlike_search (h : SameNodes dev dev' tree)
    (order : KeyedRecord → Except Error Ordering) :
    EndsAlike FindsSame (tree.search dev order 0).result (tree.search dev' order 0).result := by
  have hends := (inStep_searchWith_zero (tree.readNode dev) (tree.readNode dev') tree
    order).endsAlike h.endsAlike_readNode
  refine hends.mono fun hit hit' hfound hsame => ?_
  -- The record was compared with the key before it was found, so it can be read.
  have hread : probe order hit.node hit.index = .ok .eq := by
    rw [searchWith_zero] at hfound
    split at hfound
    · cases hfound
    · exact (starts_of_descend hfound).equal
  exact findsSame_of_alike hsame hread

/-- Let two devices give the nodes of a tree alike, whatever is in them, but for links,
heights and reserved fields. A search that is not told to go on cannot tell them apart: on
both it asks for the same nodes in the same order, down from the root by pointers to
children, no more than sixteen of them, and ends in the same error or finds the same
record. -/
theorem search_without_links (h : SameNodes dev dev' tree)
    (order : KeyedRecord → Except Error Ordering) :
    tree.loads dev' order 0 = tree.loads dev order 0 ∧
    (tree.loads dev order 0).length ≤ 16 ∧
    (∀ first ∈ (tree.loads dev order 0).head?, first = tree.rootNode) ∧
    (tree.loads dev order 0).IsChain (Below (tree.readNode dev) · 1 ·) ∧
    EndsAlike FindsSame (tree.search dev order 0).result (tree.search dev' order 0).result := by
  obtain ⟨hlength, hfirst, hchain⟩ := isChain_loads_zero dev tree order
  exact ⟨loads_eq_of_sameNodes h order, hlength, hfirst, hchain,
    endsAlike_search h order⟩

/-- The nodes of two forks are alike if the forks are, in all other places. -/
theorem sameNodes_of_stores {content content' : Bytes} (h : tree.fork.Stores dev content)
    (h' : tree.fork.Stores dev' content')
    (hbytes : ∀ place < content.length,
      ¬ NodeDescriptor.IsUnread (place % tree.nodeSize.toNat) →
        content'[place]? = content[place]?) : SameNodes dev dev' tree := by
  intro number
  have hlength : content'.length = content.length := h'.size_eq.symm.trans h.size_eq
  rw [Fork.result_readAt_of_stores h, Fork.result_readAt_of_stores h', hlength]
  split
  · exact .failed _
  · next hroom =>
    refine .ended ⟨by simp [hlength], fun place hplace hread => ?_⟩
    rw [List.length_take, List.length_drop] at hplace
    have hin : number.toNat * tree.nodeSize.toNat + place < content.length := by omega
    have hmod : (number.toNat * tree.nodeSize.toNat + place) % tree.nodeSize.toNat = place := by
      rw [Nat.mul_comm, Nat.mul_add_mod, Nat.mod_eq_of_lt (by omega)]
    rw [List.getElem?_take, List.getElem?_take, List.getElem?_drop, List.getElem?_drop,
      hbytes _ hin (by rw [hmod]; exact hread)]

/-! ### A sample

A root above one leaf. On one device there are no links, and on another all bits are set
in their place. -/

def twoLevels (links : Bytes) (height : UInt8) (reserved : Bytes) : Bytes :=
  List.replicate 25 0 ++
  -- A leaf with one record, of one byte of key.
  (links ++ [0xFF, height, 0, 1] ++ reserved ++ [0, 1, 7, 0, 0, 0, 0, 0, 17, 0, 14]) ++
  -- The root, which leads to it.
  (links ++ [0, height, 0, 1] ++ reserved ++ [0, 1, 7, 0, 0, 0, 1, 0, 21, 0, 14])

def unlinkedContent : Bytes := twoLevels (List.replicate 8 0) 0 [0, 0]

def strayContent : Bytes := twoLevels (List.replicate 8 0xFF) 0xFF [0xFF, 0xFF]

def unlinkedDevice : Device := (Device.ofImage unlinkedContent.toArray).withBlockSize 25

def strayDevice : Device := (Device.ofImage strayContent.toArray).withBlockSize 15

def twoLevelTree : Tree where
  id := .catalogFile
  fork := {
    size := 75
    extents := #v[⟨0, 5⟩, .unused, .unused, .unused, .unused, .unused, .unused, .unused] }
  rootNode := 2
  nodeSize := 25
  totalNodes := 3

theorem unlinked_stores : twoLevelTree.fork.Stores unlinkedDevice unlinkedContent where
  blockSize_pos := by decide
  size_eq := by decide
  byte?_eq := by decide +kernel

theorem stray_stores : twoLevelTree.fork.Stores strayDevice strayContent where
  blockSize_pos := by decide
  size_eq := by decide
  byte?_eq := by decide +kernel

theorem stray_sameNodes : SameNodes unlinkedDevice strayDevice twoLevelTree := by
  refine sameNodes_of_stores unlinked_stores stray_stores ?_
  decide +kernel

theorem unlinked_loads : twoLevelTree.loads unlinkedDevice (fun _ => .ok .eq) 0 = [2, 1] := by
  cbv

def unlinkedLeaf : Node where
  number := 1
  descriptor := {
    forwardLink := 0
    backwardLink := 0
    kind := -1
    height := 0
    recordCount := 1
    reserved := 0 }
  data := ((unlinkedContent.drop 25).take 25).toArray

theorem unlinked_searched : (twoLevelTree.search unlinkedDevice (fun _ => .ok .eq) 0).result =
    .ok ⟨unlinkedLeaf, 0⟩ := by
  cbv

/-- A plain search finds the record on both. One that goes on finds no next leaf on the one,
and on the other a link to a node that cannot be read. -/
theorem stray_searched :
    twoLevelTree.loads strayDevice (fun _ => .ok .eq) 0 = [2, 1] ∧
    (∃ hit, (twoLevelTree.search strayDevice (fun _ => .ok .eq) 0).result = .ok hit ∧
      hit.node.number = 1 ∧ hit.index = 0 ∧ hit.node.record hit.index = .ok [0, 1, 7]) ∧
    (twoLevelTree.search unlinkedDevice (fun _ => .ok .eq) 1).result = .error .notFound ∧
    (twoLevelTree.search strayDevice (fun _ => .ok .eq) 1).result =
      .error (.shortRead 25 0) := by
  obtain ⟨hloads, -, -, -, hends⟩ := search_without_links stray_sameNodes fun _ => .ok .eq
  rw [unlinked_searched] at hends
  obtain ⟨hit, hhit, hnumber, hindex, bytes, hbytes, hsame⟩ := hends.exists_of_ok
  have hrecord : unlinkedLeaf.record 0 = .ok [0, 1, 7] := by cbv
  cases hrecord.symm.trans hbytes
  exact ⟨hloads.trans unlinked_loads, ⟨hit, hhit, hnumber, hindex, hsame⟩, by cbv, by cbv⟩

end Tree

end HfsPlus
