import HfsPlus.Proofs.Tree.Chain
import HfsPlus.Proofs.Tree.Scan

/-!
# A hit is what it claims to be

Nothing is asked of the tree here. Its nodes may be anything that can be
loaded, its pointers may run in circles, the records of a node may be in no
order, and the order that the search is given need not be one. A hit is still
genuine: there is a leaf that child pointers lead to from the root, a record in
it that is equal, and leaves that follow it by their forward links, and the hit
is the record so many places behind the equal one as the search was told to go
on.

The way down gives the first half, one pointer a level (`starts_of_descend`);
`exists_chain_of_advance` gives the second. Along the same leaves every smaller
count comes to a record too, so an enumeration that shows an entry can show all
those in front of it.
-/

namespace HfsPlus.Tree

variable {load : UInt32 → Run Node} {order : KeyedRecord → Except Error Ordering}
  {dev : Device} {tree : Tree}

/-- The node at `number` is this many child pointers below the one at `top`. -/
inductive Below (load : UInt32 → Run Node) :
    (top : UInt32) → (pointers : Nat) → (number : UInt32) → Prop where
  | top {number : UInt32} : Below load number 0 number
  | child {top child number : UInt32} {pointers i : Nat} {node : Node}
      (loads : (load top).result = .ok node) (kind_eq : node.kind = .ok .index)
      (lt : i < node.recordCount) (leads : childAt node i = .ok child)
      (below : Below load child pointers number) : Below load top (pointers + 1) number

/-- A record of a leaf below the root, fewer than `levels` pointers away, that
is equal. -/
structure Starts (load : UInt32 → Run Node) (order : KeyedRecord → Except Error Ordering)
    (levels : Nat) (root : UInt32) (start : Hit) : Prop where
  below : ∃ pointers < levels, ∃ number,
    Below load root pointers number ∧ (load number).result = .ok start.node
  kind_eq : start.node.kind = .ok .leaf
  lt : start.index < start.node.recordCount
  equal : probe order start.node start.index = .ok .eq

theorem Starts.loads (hnumber : ∀ {number node}, (load number).result = .ok node →
      node.number = number) {levels : Nat} {root : UInt32} {start : Hit}
    (h : Starts load order levels root start) :
    (load start.node.number).result = .ok start.node := by
  obtain ⟨-, -, number, -, hload⟩ := h.below
  rw [hnumber hload]
  exact hload

theorem starts_of_descend {id : CatalogId} {levels : Nat} {number : UInt32} {start : Hit}
    (h : (descend load order id levels number).result = .ok start) :
    Starts load order levels number start := by
  induction levels generalizing number with
  | zero => cases h
  | succ levels ih =>
    cases hload : (load number).result with
    | error e =>
      rw [result_descend_of_load_error hload] at h
      cases h
    | ok node =>
      rw [result_descend_of_load hload] at h
      obtain ⟨t, hturn, h⟩ := exists_of_bind_eq_ok h
      cases t with
      | hit index =>
        cases h
        obtain ⟨hkind, hlt, heq⟩ := leaf_of_turn_eq_hit hturn
        exact ⟨⟨0, Nat.succ_pos _, number, .top, hload⟩, hkind, hlt, heq⟩
      | down child =>
        obtain ⟨hkind, i, hi, hchild⟩ := index_of_turn_eq_down hturn
        have hstarts := ih h
        obtain ⟨pointers, hlt, n, hbelow, hn⟩ := hstarts.below
        exact { hstarts with
          below := ⟨pointers + 1, Nat.succ_lt_succ hlt, n,
            .child hload hkind hi hchild hbelow, hn⟩ }

/-- A search that succeeds has come down to a record, and gone on from it. -/
theorem exists_start_of_search {skip : Nat} {hit : Hit}
    (h : (tree.search dev order skip).result = .ok hit) :
    tree.rootNode ≠ 0 ∧ ∃ start,
      (descend (tree.readNode dev) order tree.id maxDepth tree.rootNode).result = .ok start ∧
      (advance (tree.readNode dev) tree (tree.totalNodes.toNat - 1) start.node start.index
        skip).result = .ok hit := by
  by_cases hroot : tree.rootNode = 0
  · rw [search, searchWith, if_pos hroot] at h
    cases h
  · rw [result_search dev hroot] at h
    exact ⟨hroot, exists_of_bind_eq_ok h⟩

theorem result_search_of_start (hroot : tree.rootNode ≠ 0) {start : Hit}
    (h : (descend (tree.readNode dev) order tree.id maxDepth tree.rootNode).result = .ok start)
    (skip : Nat) :
    (tree.search dev order skip).result =
      (advance (tree.readNode dev) tree (tree.totalNodes.toNat - 1) start.node start.index
        skip).result := by
  rw [result_search dev hroot, h]
  rfl

/-- Every record along a chain from a leaf is a record of a leaf. -/
theorem Chain.leaf_of_getElem? {first : Node} {rest : List Node} (h : Chain load first rest)
    (hkind : first.kind = .ok .leaf) {i : Nat} {hit : Hit}
    (hhit : (records (first :: rest))[i]? = some hit) :
    hit.node.kind = .ok .leaf ∧ hit.index < hit.node.recordCount := by
  induction h generalizing i with
  | nil =>
    rw [records_singleton] at hhit
    obtain ⟨hnode, hlt⟩ := mem_hits.mp (List.mem_of_getElem? hhit)
    exact ⟨hnode ▸ hkind, hnode ▸ hlt⟩
  | cons _ _ _ kind_eq _ _ ih =>
    rw [getElem?_records_cons] at hhit
    split at hhit
    · next hi =>
      cases hhit
      exact ⟨hkind, hi⟩
    · exact ih kind_eq hhit

/-- Whatever the tree is, a hit is a record of a leaf, as many places behind an
equal record as were to be passed over, along leaves that follow one another by
their links; and a search that goes on over fewer records succeeds too. -/
theorem search_genuine {skip : Nat} {hit : Hit}
    (h : (tree.search dev order skip).result = .ok hit) :
    ∃ (start : Hit) (rest : List Node),
      Starts (tree.readNode dev) order 16 tree.rootNode start ∧
      Chain (tree.readNode dev) start.node rest ∧
      (records (start.node :: rest))[start.index + skip]? = some hit ∧
      hit.node.kind = .ok .leaf ∧ hit.index < hit.node.recordCount ∧
      (∀ fewer < skip, ∃ before, (tree.search dev order fewer).result = .ok before ∧
        (records (start.node :: rest))[start.index + fewer]? = some before) ∧
      (skip = 0 → ∃ r, hit.keyedRecord = .ok r ∧ order r = .ok .eq) := by
  obtain ⟨hroot, start, hstart, hadvance⟩ := exists_start_of_search h
  have hstarts := starts_of_descend hstart
  have hindex := Nat.le_of_lt hstarts.lt
  obtain ⟨rest, hchain, hlength, hhit, -⟩ :=
    exists_chain_of_advance tree.id number_of_readNode hindex hadvance
  obtain ⟨hkind, hlt⟩ := hchain.leaf_of_getElem? hstarts.kind_eq hhit
  refine ⟨start, rest, hstarts, hchain, hhit, hkind, hlt, fun fewer hfewer => ?_, ?_⟩
  · -- The list of records is long enough for `skip`, so it is for less.
    obtain ⟨hshort, -⟩ := List.getElem?_eq_some_iff.mp hhit
    have hplace : start.index + fewer < (records (start.node :: rest)).length := by omega
    refine ⟨(records (start.node :: rest))[start.index + fewer], ?_,
      List.getElem?_eq_getElem hplace⟩
    rw [result_search_of_start hroot hstart, result_advance_chain hchain hlength hindex,
      List.getElem?_eq_getElem hplace]
  · rintro rfl
    rw [Nat.add_zero, getElem?_records_cons, if_pos hstarts.lt] at hhit
    cases hhit
    exact exists_of_bind_eq_ok hstarts.equal

/-- An order in which every record is equal leads to the first record of the
sample, and from there into the second leaf. -/
theorem search_sample_all_equal :
    (sampleTree.search sampleDevice (fun _ => .ok .eq) 2).result = .ok ⟨sampleRight, 0⟩ ∧
    ∃ (start : Hit) (rest : List Node),
      Starts (sampleTree.readNode sampleDevice) (fun _ => .ok .eq) 16 3 start ∧
      Chain (sampleTree.readNode sampleDevice) start.node rest ∧
      (records (start.node :: rest))[start.index + 2]? = some ⟨sampleRight, 0⟩ := by
  have h : (sampleTree.search sampleDevice (fun _ => .ok .eq) 2).result =
      .ok ⟨sampleRight, 0⟩ := by
    cbv
  obtain ⟨start, rest, hstarts, hchain, hhit, -⟩ := search_genuine h
  exact ⟨h, start, rest, hstarts, hchain, hhit⟩

end HfsPlus.Tree
