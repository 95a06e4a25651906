import HfsPlus.Catalog.Key
import HfsPlus.Proofs.Tree.Bounds
import Mathlib.Data.List.Nodup

/-!
# Leaves in a circle

A search remembers none of the leaves that it has gone through. What it has
against links that run in a circle is the number of its hops, which comes from
the tree's header, and that it goes on from no leaf that links to itself.

`GuardsCircles` is what is asked of it: that it goes along different leaves, that
coming back to one is damage, and so that no record comes at two counts. It does
that exactly if the circle, if there is one, is longer than the hops allow
(`guardsCircles_exact`). In a shorter one it goes round. For a leaf that comes twice
makes its chain `Endless`: the loads are the same the second time, so the piece
between the two can be put behind itself. Then the walk has a link to follow from
each leaf, and only the hops can end it: the answer is a record of the leaves of
the circle, counted again each time round, and past as many leaves as the tree
has nodes it is damage (`result_search_of_endless`). The two leaves of the sample
show it.
-/

namespace HfsPlus.Tree

variable {load : UInt32 → Run Node} {dev : Device} {tree : Tree}
  {order : KeyedRecord → Except Error Ordering} {first : Node} {rest : List Node}

/-- Chains from this leaf come in every length. -/
def Endless (load : UInt32 → Run Node) (first : Node) : Prop :=
  ∀ length, ∃ rest, Chain load first rest ∧ rest.length = length

/-! ## A leaf that comes twice -/

theorem Chain.left_of_append {more : List Node} (h : Chain load first (rest ++ more)) :
    Chain load first rest := by
  induction rest generalizing first with
  | nil => exact .nil
  | cons next rest ih =>
    cases h with
    | cons link ne_self loads kind_eq ne_empty chain =>
      exact .cons link ne_self loads kind_eq ne_empty (ih chain)

theorem Chain.take (h : Chain load first rest) (n : Nat) : Chain load first (rest.take n) := by
  rw [← List.take_append_drop n rest] at h
  exact h.left_of_append

/-- The last link of a chain is one that the walk follows. -/
theorem Chain.link_of_concat {last : Node} (h : Chain load first (rest ++ [last])) :
    (rest.getLastD first).forwardLink ≠ 0 ∧
      (rest.getLastD first).forwardLink ≠ (rest.getLastD first).number := by
  induction rest generalizing first with
  | nil =>
    cases h with
    | cons link ne_self _ _ _ _ => exact ⟨link, ne_self⟩
  | cons next rest ih =>
    cases h with
    | cons _ _ _ _ _ chain =>
      rw [List.getLastD_cons]
      exact ih chain

/-- A chain that comes back to its first leaf goes round as often as one
likes. -/
theorem Chain.endless_of_mem (h : Chain load first rest) (hmem : first ∈ rest) :
    Endless load first := by
  obtain ⟨before, behind, rfl⟩ := List.append_of_mem hmem
  have hround : Chain load first (before ++ [first]) := by
    rw [List.append_cons] at h
    exact h.left_of_append
  -- A round has at least one leaf, so enough of them are long enough.
  have hlong : ∀ length, ∃ rest, Chain load first rest ∧ length ≤ rest.length := by
    intro length
    induction length with
    | zero => exact ⟨[], .nil, Nat.le_refl _⟩
    | succ length ih =>
      obtain ⟨rest, hchain, hle⟩ := ih
      refine ⟨before ++ [first] ++ rest, hround.append ?_, ?_⟩
      · rw [List.getLastD_concat]
        exact hchain
      · rw [List.length_append, List.length_append, List.length_singleton]
        omega
  intro length
  obtain ⟨rest, hchain, hle⟩ := hlong length
  exact ⟨rest.take length, hchain.take length, List.length_take_of_le hle⟩

/-- If a leaf comes twice in a chain, the chain can go on without end. -/
theorem Chain.endless_of_not_nodup (h : Chain load first rest)
    (htwice : ¬ (first :: rest).Nodup) : Endless load first := by
  induction h with
  | nil => exact absurd (List.nodup_singleton _) htwice
  | @cons first next rest link ne_self loads kind_eq ne_empty chain ih =>
    have hchain := Chain.cons link ne_self loads kind_eq ne_empty chain
    by_cases hmem : first ∈ next :: rest
    · exact hchain.endless_of_mem hmem
    · have hnext : Endless load next :=
        ih fun hnodup => htwice (List.nodup_cons.mpr ⟨hmem, hnodup⟩)
      intro length
      cases length with
      | zero => exact ⟨[], .nil, rfl⟩
      | succ length =>
        obtain ⟨more, hmore, rfl⟩ := hnext length
        exact ⟨next :: more, .cons link ne_self loads kind_eq ne_empty hmore, rfl⟩

/-! ## Leaves and their numbers -/

/-- What holds of every leaf that a walk goes on to holds of a whole chain. -/
theorem Chain.forall_mem {P : Node → Prop} (h : Chain load first rest) (hfirst : P first)
    (hnext : ∀ {number leaf}, (load number).result = .ok leaf → leaf.kind = .ok .leaf →
      leaf.recordCount ≠ 0 → P leaf) : ∀ leaf ∈ first :: rest, P leaf := by
  induction h with
  | nil =>
    intro leaf hmem
    rw [List.mem_singleton.mp hmem]
    exact hfirst
  | cons _ _ loads kind_eq ne_empty _ ih =>
    intro leaf hmem
    rcases List.mem_cons.mp hmem with rfl | hmem
    · exact hfirst
    · exact ih (hnext loads kind_eq ne_empty) leaf hmem

/-- If the first leaf of a chain was loaded under its own number, so were all
the others. -/
theorem Chain.loads_of_mem (hnumber : ∀ {number node}, (load number).result = .ok node →
      node.number = number) (h : Chain load first rest)
    (hfirst : (load first.number).result = .ok first) :
    ∀ leaf ∈ first :: rest, (load leaf.number).result = .ok leaf :=
  h.forall_mem hfirst fun hload _ _ => by rwa [hnumber hload]

/-- Leaves that were loaded under their own numbers are told apart by them. -/
theorem nodup_numbers_iff {leaves : List Node}
    (h : ∀ leaf ∈ leaves, (load leaf.number).result = .ok leaf) :
    (leaves.map Node.number).Nodup ↔ leaves.Nodup := by
  refine ⟨List.Nodup.of_map _, fun hnodup => ?_⟩
  refine List.Nodup.map_on (fun a ha b hb heq => ?_) hnodup
  have hload := (h a ha).symm.trans (heq ▸ h b hb)
  injection hload

theorem nodup_records {leaves : List Node} (h : leaves.Nodup) : (records leaves).Nodup := by
  refine List.nodup_flatMap.mpr ⟨fun leaf _ => ?_, ?_⟩
  · refine List.Nodup.map (fun i j hij => ?_) List.nodup_range
    injection hij
  · refine h.imp fun hne hit ha hb => hne ?_
    rw [← (mem_hits.mp ha).1, ← (mem_hits.mp hb).1]

/-- Along leaves of which none comes twice, a smaller count comes to another
record. -/
theorem Chain.result_advance_ne (h : Chain load first rest) (hnodup : (first :: rest).Nodup)
    {hops index skip fewer : Nat} (hlength : rest.length ≤ hops)
    (hindex : index ≤ first.recordCount) {hit : Hit}
    (hhit : (records (first :: rest))[index + skip]? = some hit) (hfewer : fewer < skip) :
    (advance load tree hops first index fewer).result ≠ .ok hit := by
  intro hsame
  obtain ⟨hplace, hat⟩ := List.getElem?_eq_some_iff.mp hhit
  have hbefore : index + fewer < (records (first :: rest)).length := by omega
  rw [result_advance_chain h hlength hindex, List.getElem?_eq_getElem hbefore] at hsame
  injection hsame with hsame
  have hplaces := (List.Nodup.getElem_inj_iff (nodup_records hnodup)).mp
    (hat.trans hsame.symm)
  omega

theorem length_records_take_le (first : Node) (rest : List Node) (n : Nat) :
    (records (first :: rest.take n)).length ≤ (records (first :: rest)).length := by
  have hsplit : records rest = records (rest.take n) ++ records (rest.drop n) := by
    rw [records, records, records, ← List.flatMap_append, List.take_append_drop]
  rw [length_records_cons, length_records_cons, hsplit, List.length_append]
  omega

section Ends

variable {last : Node} {hops index skip : Nat}

/-- A walk that has a link to follow from each of the leaves that it may load
ends behind the last of them. -/
theorem Chain.result_advance_of_link (h : Chain load first (rest ++ [last]))
    (hindex : index ≤ first.recordCount) :
    (advance load tree rest.length first index skip).result =
      match (records (first :: rest))[index + skip]? with
      | some hit => .ok hit
      | none => .error (.corrupted (.endlessSiblings tree.id tree.totalNodes)) := by
  obtain ⟨hlink, hself⟩ := h.link_of_concat
  rw [result_advance_chain h.left_of_append (Nat.le_refl _) hindex, Nat.sub_self, advance_eq,
    Nat.sub_self, if_neg (Nat.not_lt_zero _), if_neg hlink, if_neg hself]
  rfl

theorem Chain.result_advance_of_long (h : Chain load first rest) (hlong : hops < rest.length)
    (hindex : index ≤ first.recordCount)
    (hpast : (records (first :: rest.take hops)).length ≤ index + skip) :
    (advance load tree hops first index skip).result =
      .error (.corrupted (.endlessSiblings tree.id tree.totalNodes)) := by
  have hlength : (rest.take hops).length = hops := List.length_take_of_le (Nat.le_of_lt hlong)
  have hmore := h.take (hops + 1)
  rw [← List.take_append_getElem hlong] at hmore
  have hresult : (advance load tree (rest.take hops).length first index skip).result = _ :=
    hmore.result_advance_of_link hindex
  rwa [hlength, List.getElem?_eq_none hpast] at hresult

/-- A walk does not go on from a leaf that links to itself. -/
theorem Chain.result_advance_of_self (h : Chain load first rest) (hlength : rest.length ≤ hops)
    (hindex : index ≤ first.recordCount)
    (hpast : (records (first :: rest)).length ≤ index + skip)
    (hlink : (rest.getLastD first).forwardLink ≠ 0)
    (hself : (rest.getLastD first).forwardLink = (rest.getLastD first).number) :
    (advance load tree hops first index skip).result =
      .error (.corrupted (.selfLink (rest.getLastD first).forwardLink)) := by
  rw [result_advance_chain h hlength hindex, List.getElem?_eq_none hpast, advance_eq,
    Nat.sub_self, if_neg (Nat.not_lt_zero _), if_neg hlink, if_pos hself]
  rfl

end Ends

/-- A count that comes to the last record of a chain goes along all its leaves. -/
theorem Chain.nodes_advance (id : CatalogId) (hnumber : ∀ {number node},
      (load number).result = .ok node → node.number = number) (h : Chain load first rest) :
    ∀ {hops index skip : Nat}, rest.length ≤ hops → index < first.recordCount →
    index + skip + 1 = (records (first :: rest)).length →
    (advance (recording load id) tree hops first index skip).nodes =
      rest.map Node.number := by
  induction h with
  | @nil first =>
    intro hops index skip _ hindex hlast
    rw [length_records_cons] at hlast
    have hnone : (records ([] : List Node)).length = 0 := rfl
    exact nodes_advance_of_lt id (by omega)
  | @cons first next rest link ne_self loads kind_eq ne_empty chain ih =>
    intro hops index skip hhops hindex hlast
    obtain ⟨hops, rfl⟩ : ∃ m, hops = m + 1 := by
      rw [List.length_cons] at hhops
      exact ⟨hops - 1, by omega⟩
    have hpositive := Nat.pos_of_ne_zero ne_empty
    have hnext := length_records_cons next rest
    rw [length_records_cons] at hlast
    rw [nodes_advance_of_link id (by omega) link ne_self
        (readSibling_eq_ok_iff.mpr ⟨loads, kind_eq, ne_empty⟩),
      ih (Nat.le_of_succ_le_succ hhops) hpositive (by omega), List.map_cons, hnumber loads]

/-! ## The search -/

section Search

variable {start : Hit} {walk : List Node}

/-- Where its chain is endless, a search answers with the records of as many
leaves as the tree has nodes, and behind them with damage. -/
theorem result_search_of_endless (hroot : tree.rootNode ≠ 0)
    (hstart : (descend (tree.readNode dev) order tree.id maxDepth tree.rootNode).result =
      .ok start)
    (h : Endless (tree.readNode dev) start.node) :
    ∃ walk, Chain (tree.readNode dev) start.node walk ∧
      walk.length + 1 = max tree.totalNodes.toNat 1 ∧
      ∀ skip, (tree.search dev order skip).result =
        match (records (start.node :: walk))[start.index + skip]? with
        | some hit => .ok hit
        | none => .error (.corrupted (.endlessSiblings tree.id tree.totalNodes)) := by
  -- One leaf more than the hops allow: the last link of the walk leads somewhere.
  obtain ⟨more, hmore, hlength⟩ := h (tree.totalNodes.toNat - 1 + 1)
  obtain ⟨walk, last, rfl⟩ := List.eq_nil_or_concat' more |>.resolve_left fun hnil => by
    rw [hnil] at hlength
    cases hlength
  rw [List.length_append, List.length_singleton, Nat.add_right_cancel_iff] at hlength
  refine ⟨walk, hmore.left_of_append, by omega, fun skip => ?_⟩
  rw [result_search_of_start hroot hstart, ← hlength]
  exact hmore.result_advance_of_link (Nat.le_of_lt (starts_of_descend hstart).lt)

/-- No leaf comes twice on the way of a search that succeeds. -/
def RevisitsNone (dev : Device) (tree : Tree)
    (order : KeyedRecord → Except Error Ordering) (skip : Nat) : Prop :=
  ∀ hit start, (tree.search dev order skip).result = .ok hit →
    (descend (tree.readNode dev) order tree.id maxDepth tree.rootNode).result = .ok start →
    (start.node.number :: tree.loadsAlong dev order skip).Nodup

/-- Counting on over `skip` records from this one comes back to a leaf: it is past
all records of a chain whose last leaf links to one of the chain, the last or any
other. -/
def Reenters (load : UInt32 → Run Node) (start : Hit) (skip : Nat) : Prop :=
  ∃ rest, Chain load start.node rest ∧
    (records (start.node :: rest)).length ≤ start.index + skip ∧
    (rest.getLastD start.node).forwardLink ≠ 0 ∧
    (rest.getLastD start.node).forwardLink ∈ (start.node :: rest).map Node.number

/-- Links that run in a circle give no wrong answer in silence. A count is a place
in an enumeration, and so no place shows the record of another. -/
structure GuardsCircles (dev : Device) (tree : Tree)
    (order : KeyedRecord → Except Error Ordering) : Prop where
  distinct : ∀ skip, tree.RevisitsNone dev order skip
  damaged : ∀ start skip, tree.rootNode ≠ 0 →
    (descend (tree.readNode dev) order tree.id maxDepth tree.rootNode).result = .ok start →
    Reenters (tree.readNode dev) start skip →
    ∃ damage, (tree.search dev order skip).result = .error (.corrupted damage)
  once : ∀ skip skip' hit, (tree.search dev order skip).result = .ok hit →
    (tree.search dev order skip').result = .ok hit → skip = skip'

/-- As many leaves as the hops allow, from the one that the search comes down to,
are all different. -/
def LeavesApart (dev : Device) (tree : Tree)
    (order : KeyedRecord → Except Error Ordering) : Prop :=
  ∀ start rest, tree.rootNode ≠ 0 →
    (descend (tree.readNode dev) order tree.id maxDepth tree.rootNode).result = .ok start →
    Chain (tree.readNode dev) start.node rest → rest.length < max tree.totalNodes.toNat 1 →
    ((start.node :: rest).map Node.number).Nodup

/-- A search that succeeds has gone along a chain that the hops allow. -/
theorem exists_chain_of_search {skip : Nat} {hit : Hit}
    (h : (tree.search dev order skip).result = .ok hit) :
    tree.rootNode ≠ 0 ∧ ∃ (start : Hit) (rest : List Node),
      (descend (tree.readNode dev) order tree.id maxDepth tree.rootNode).result = .ok start ∧
      Chain (tree.readNode dev) start.node rest ∧
      rest.length < max tree.totalNodes.toNat 1 ∧
      (records (start.node :: rest))[start.index + skip]? = some hit ∧
      tree.loadsAlong dev order skip = rest.map Node.number := by
  obtain ⟨hroot, start, hstart, hadvance⟩ := exists_start_of_search h
  obtain ⟨rest, hchain, hlength, hhit, hnodes⟩ := exists_chain_of_advance tree.id
    number_of_readNode (Nat.le_of_lt (starts_of_descend hstart).lt) hadvance
  refine ⟨hroot, start, rest, hstart, hchain, by omega, hhit, ?_⟩
  rw [loadsAlong, if_neg hroot, hstart]
  exact hnodes

namespace LeavesApart

theorem distinct (h : tree.LeavesApart dev order) (skip : Nat) :
    tree.RevisitsNone dev order skip := by
  intro hit start hsearch hstart
  obtain ⟨hroot, start', rest, hstart', hchain, hlength, -, hloads⟩ :=
    exists_chain_of_search hsearch
  cases hstart.symm.trans hstart'
  rw [hloads]
  exact h start rest hroot hstart hchain hlength

theorem once (h : tree.LeavesApart dev order) {skip skip' : Nat} {hit : Hit}
    (hsearch : (tree.search dev order skip).result = .ok hit)
    (hsearch' : (tree.search dev order skip').result = .ok hit) : skip ≤ skip' := by
  obtain ⟨hroot, start, rest, hstart, hchain, hlength, hhit, -⟩ := exists_chain_of_search hsearch
  have hstarts := starts_of_descend hstart
  have hnodup := (nodup_numbers_iff (hchain.loads_of_mem number_of_readNode
    (hstarts.loads number_of_readNode))).mp (h start rest hroot hstart hchain hlength)
  refine Nat.not_lt.mp fun hlt => ?_
  rw [result_search_of_start hroot hstart] at hsearch'
  exact hchain.result_advance_ne hnodup (by omega) (Nat.le_of_lt hstarts.lt) hhit hlt hsearch'

/-- Coming back is met with one of the two guards. -/
theorem damaged (h : tree.LeavesApart dev order) (hroot : tree.rootNode ≠ 0) {skip : Nat}
    (hstart : (descend (tree.readNode dev) order tree.id maxDepth tree.rootNode).result =
      .ok start)
    (hback : Reenters (tree.readNode dev) start skip) :
    ∃ damage, (tree.search dev order skip).result = .error (.corrupted damage) := by
  obtain ⟨rest, hchain, hpast, hlink, hmem⟩ := hback
  have hstarts := starts_of_descend hstart
  have hindex := Nat.le_of_lt hstarts.lt
  rw [result_search_of_start hroot hstart]
  by_cases hlong : tree.totalNodes.toNat - 1 < rest.length
  · exact ⟨_, hchain.result_advance_of_long hlong hindex
      (Nat.le_trans (length_records_take_le _ _ _) hpast)⟩
  · have hlength := Nat.not_lt.mp hlong
    by_cases hself : (rest.getLastD start.node).forwardLink = (rest.getLastD start.node).number
    · exact ⟨_, hchain.result_advance_of_self hlength hindex hpast hlink hself⟩
    · -- The link is one that a walk follows, to a leaf that comes twice then. So there is
      -- no hop left for it.
      obtain ⟨leaf, hleaf, hnumber⟩ := List.mem_map.mp hmem
      obtain ⟨hload, hkind, hempty⟩ := hchain.forall_mem
        (P := fun leaf => (tree.readNode dev leaf.number).result = .ok leaf ∧
          leaf.kind = .ok .leaf ∧ leaf.recordCount ≠ 0)
        ⟨hstarts.loads number_of_readNode, hstarts.kind_eq, Nat.ne_zero_of_lt hstarts.lt⟩
        (fun hload hkind hempty => ⟨by rwa [number_of_readNode hload], hkind, hempty⟩)
        leaf hleaf
      have hmore : Chain (tree.readNode dev) start.node (rest ++ [leaf]) :=
        hchain.append (.cons hlink hself (hnumber ▸ hload) hkind hempty .nil)
      have hlast : rest.length = tree.totalNodes.toNat - 1 := by
        refine Nat.le_antisymm hlength (Nat.not_lt.mp fun hlt => ?_)
        have hnodup := h start _ hroot hstart hmore
          (by rw [List.length_append, List.length_singleton]; omega)
        rw [← List.cons_append, List.map_append] at hnodup
        exact (List.nodup_append.mp hnodup).2.2 _ (List.mem_map_of_mem hleaf) _
          (List.mem_singleton_self _) rfl
      refine ⟨_, hmore.result_advance_of_long ?_ hindex ?_⟩
      · rw [List.length_append, List.length_singleton]
        omega
      · rw [← hlast, List.take_left]
        exact hpast

end LeavesApart

theorem GuardsCircles.leavesApart (h : tree.GuardsCircles dev order) :
    tree.LeavesApart dev order := by
  intro start rest hroot hstart hchain hlength
  -- A search for the last record of the chain succeeds, and goes along all of it.
  have hstarts := starts_of_descend hstart
  have hrecords := length_records_cons start.node rest
  have hlt := hstarts.lt
  obtain ⟨skip, hlast⟩ : ∃ skip,
      start.index + skip + 1 = (records (start.node :: rest)).length :=
    ⟨(records (start.node :: rest)).length - 1 - start.index, by omega⟩
  have hsearch := result_search_of_start hroot hstart skip
  rw [result_advance_chain hchain (by omega) (Nat.le_of_lt hlt),
    List.getElem?_eq_getElem (by omega)] at hsearch
  have hloads : tree.loadsAlong dev order skip = rest.map Node.number := by
    rw [loadsAlong, if_neg hroot, hstart]
    exact hchain.nodes_advance tree.id number_of_readNode (by omega) hlt hlast
  have hnodup := h.distinct skip _ start hsearch hstart
  rwa [hloads] at hnodup

/-- The guards against circles, the number of hops and the test for a leaf that links
to itself, do what they are there for exactly where no leaf comes twice before the
hops are used up. Where one does, the search goes round with it: it answers each count
with a record of the leaves that it may load, in which that leaf counts again, and all
counts past these with damage. -/
theorem guardsCircles_exact (dev : Device) (tree : Tree)
    (order : KeyedRecord → Except Error Ordering) :
    (tree.GuardsCircles dev order ↔ tree.LeavesApart dev order) ∧
    (¬ tree.LeavesApart dev order → ∃ (start : Hit) (walk : List Node),
      (descend (tree.readNode dev) order tree.id maxDepth tree.rootNode).result = .ok start ∧
      Chain (tree.readNode dev) start.node walk ∧
      walk.length + 1 = max tree.totalNodes.toNat 1 ∧
      ∀ skip, (tree.search dev order skip).result =
        match (records (start.node :: walk))[start.index + skip]? with
        | some hit => .ok hit
        | none => .error (.corrupted (.endlessSiblings tree.id tree.totalNodes))) := by
  refine ⟨⟨GuardsCircles.leavesApart, fun h => ⟨h.distinct,
    fun _ _ hroot hstart => h.damaged hroot hstart, fun _ _ _ hsearch hsearch' =>
      Nat.le_antisymm (h.once hsearch hsearch') (h.once hsearch' hsearch)⟩⟩, fun h => ?_⟩
  simp only [LeavesApart, not_forall] at h
  obtain ⟨start, rest, hroot, hstart, hchain, -, htwice⟩ := h
  have hnumbers := nodup_numbers_iff (hchain.loads_of_mem number_of_readNode
    ((starts_of_descend hstart).loads number_of_readNode))
  obtain ⟨walk, hwalk⟩ := result_search_of_endless hroot hstart
    (hchain.endless_of_not_nodup (mt hnumbers.mpr htwice))
  exact ⟨start, walk, hstart, hwalk⟩

end Search

/-! ### A sample

The first leaf of `sampleTree`, as the root, and a second one that links back
to it. -/

def circleImage : Array UInt8 := #[
  -- A leaf: the thread record of folder 2, and its entry A.
  0, 0, 0, 2, 0, 0, 0, 0, 0xFF, 1, 0, 2, 0, 0,
  0, 6, 0, 0, 0, 2, 0, 0, 0, 3, 0, 0, 0, 0, 0, 1, 0, 0,
  0, 8, 0, 0, 0, 2, 0, 1, 0, 0x41, 0, 9,
  0, 0, 0, 44, 0, 32, 0, 14,
  -- A leaf: the entry b of folder 2.
  0, 0, 0, 1, 0, 0, 0, 1, 0xFF, 1, 0, 1, 0, 0,
  0, 8, 0, 0, 0, 2, 0, 1, 0, 0x62, 0, 9,
  0, 0, 0, 0, 0, 0, 0, 0, 0, 0, 0, 0, 0, 0, 0, 0, 0, 0, 0, 0, 0, 0,
  0, 26, 0, 14]

def circleDevice : Device := (Device.ofImage circleImage).withBlockSize 26

def circleTree : Tree := { sampleTree with rootNode := 1 }

def circleRight : Node where
  number := 2
  descriptor := {
    forwardLink := 1
    backwardLink := 1
    kind := -1
    height := 1
    recordCount := 1
    reserved := 0 }
  data := circleImage.extract 52 104

/-- Searches of the circle for the thread record of folder 2. -/
def circleSearch (skip : Nat) : Run Hit :=
  circleTree.search circleDevice (CatalogKey.firstChild 2).orderRecord skip

theorem circle_loads_left : (circleTree.readNode circleDevice 1).result = .ok sampleLeft := by
  cbv

theorem circle_loads_right :
    (circleTree.readNode circleDevice 2).result = .ok circleRight := by
  cbv

theorem circle_chain :
    Chain (circleTree.readNode circleDevice) sampleLeft [circleRight, sampleLeft] :=
  .cons (by decide) (by decide) circle_loads_right rfl (by decide)
    (.cons (by decide) (by decide) circle_loads_left rfl (by decide) .nil)

theorem circle_descends : (descend (circleTree.readNode circleDevice)
    (CatalogKey.firstChild 2).orderRecord circleTree.id maxDepth
    circleTree.rootNode).result = .ok ⟨sampleLeft, 0⟩ := by
  have hturn : turn (CatalogKey.firstChild 2).orderRecord 1 sampleLeft = .ok (.hit 0) := by
    cbv
  show (descend _ _ _ (15 + 1) 1).result = _
  rw [result_descend_of_load circle_loads_left, hturn]
  rfl

theorem circle_search_again : (circleSearch 3).result = .ok ⟨sampleLeft, 0⟩ := by
  rw [circleSearch, result_search_of_start (by decide) circle_descends,
    result_advance_chain circle_chain (by decide) (by decide)]
  rfl

/-- A search that is told to go on over three records comes back to the leaf that it
left, and to the record that it began from. -/
theorem circle_not_guarded :
    ¬ circleTree.GuardsCircles circleDevice (CatalogKey.firstChild 2).orderRecord ∧
    Reenters (circleTree.readNode circleDevice) ⟨sampleLeft, 0⟩ 3 ∧
    (circleSearch 3).result = .ok ⟨sampleLeft, 0⟩ ∧
    (circleSearch 0).result = .ok ⟨sampleLeft, 0⟩ := by
  have hfirst : (circleSearch 0).result = .ok ⟨sampleLeft, 0⟩ := by
    rw [circleSearch, result_search_of_start (by decide) circle_descends,
      result_advance_of_lt (by decide)]
  refine ⟨fun h => ?_, ⟨[circleRight], circle_chain.take 1, ?_⟩, circle_search_again, hfirst⟩
  · exact absurd (h.once _ _ _ circle_search_again hfirst) (by decide)
  · decide

/-- Two leaves give four of a walk, and nothing behind them but damage. -/
theorem circle_searched_out :
    ¬ circleTree.LeavesApart circleDevice (CatalogKey.firstChild 2).orderRecord ∧
    ∃ walk, Chain (circleTree.readNode circleDevice) sampleLeft walk ∧ walk.length = 3 ∧
      ∀ count, (circleSearch count).result =
        match (records (sampleLeft :: walk))[count]? with
        | some found => .ok found
        | none => .error (.corrupted (.endlessSiblings .catalogFile 4)) := by
  have htwice : ¬ circleTree.LeavesApart circleDevice (CatalogKey.firstChild 2).orderRecord :=
    fun h => absurd (h _ _ (by decide) circle_descends circle_chain (by decide)) (by decide)
  obtain ⟨start, walk, hstart, hchain, hlength, hsearch⟩ :=
    (guardsCircles_exact _ _ _).2 htwice
  cases circle_descends.symm.trans hstart
  refine ⟨htwice, walk, hchain, Nat.succ.inj hlength, fun count => ?_⟩
  rw [circleSearch, hsearch count, Nat.zero_add]
  rfl

end HfsPlus.Tree
