import HfsPlus.Proofs.Tree.Chain

/-!
# Search is a scan

In a well-formed tree a search answers what a scan of the leaf records from
the left would: it passes over the records up to the one that is equal, and
over as many more as it was told to, and reports the record it stands at, or
that there is none. Nothing of the tree's shape is left in that answer.

Two inductions carry it. On the way down, `Subtree.descend_finds` says that
the record below a node that is equal, if there is one, is the record that the
descent comes to: the index record that bisection settles on is the only one
whose subtree can hold it, because everything further left is below the key
and everything further right above. Along the leaves, `Linked.chain` says that
the leaves of the tree behind a given one are a chain, with nothing behind the
last, so counting on comes to the record so many places behind in their
concatenation, or to the end; a tree with as many nodes as it has leaves allows
the walk that many steps.
-/

namespace HfsPlus.Tree

variable {κ : Type} {dev : Device} {tree : Tree} {o : KeyOrder κ}

/-! ## One node

What bisection answers at a node whose records ascend, read as the turn that
the search takes there. -/

section Turn

variable {order : KeyedRecord → Except Error Ordering} {node : Node}

theorem turn_leaf_of_ascends (h : Ascends (probe order node) node.recordCount)
    (number : UInt32) (hkind : node.kind = .ok .leaf) :
    (∃ i < node.recordCount, probe order node i = .ok .eq ∧
      turn order number node = .ok (.hit i)) ∨
    ((∀ i < node.recordCount, probe order node i ≠ .ok .eq) ∧
      turn order number node = .error .notFound) := by
  rw [turn_leaf number hkind]
  obtain ⟨p, hp, hloc⟩ := h.bisect_locates
  rw [hp]
  cases p with
  | found i => exact .inl ⟨i, hloc.1, hloc.2, rfl⟩
  | gap smaller => exact .inr ⟨fun i hi => hloc.probe_ne_eq hi, rfl⟩

/-- At an index node the search goes to the last record that is not above the
key, unless the first is above it already. -/
theorem turn_index_of_ascends (h : Ascends (probe order node) node.recordCount)
    (number : UInt32) (hkind : node.kind = .ok .index)
    (hne : node.recordCount ≠ 0) {child : Nat → UInt32}
    (hleads : ∀ i < node.recordCount, childAt node i = .ok (child i)) :
    (∃ i < node.recordCount, turn order number node = .ok (.down (child i)) ∧
      (∀ j ≤ i, probe order node j ≠ .ok .gt) ∧
      ∀ j, i < j → j < node.recordCount → probe order node j = .ok .gt) ∨
    ((∀ j < node.recordCount, probe order node j = .ok .gt) ∧
      turn order number node = .error .notFound) := by
  rw [turn_index number hkind hne]
  obtain ⟨p, hp, hloc⟩ := h.bisect_locates
  rw [hp]
  rcases p with i | _ | i
  · obtain ⟨hi, heq⟩ := hloc
    refine .inl ⟨i, hi, ?_, ?_, ?_⟩
    · show Turn.down <$> childAt node i = _
      rw [hleads i hi]
      rfl
    · intro j hj
      rcases Nat.lt_or_eq_of_le hj with hj | rfl
      · rw [h.lt_of_ne_gt hj hi (by rw [heq]; simp)]
        simp
      · rw [heq]
        simp
    · exact fun j hj hjn => h.gt_of_ne_lt hj hjn (by rw [heq]; simp)
  · exact .inr ⟨fun j hj => hloc.2.2 j (Nat.zero_le j) hj, rfl⟩
  · obtain ⟨hi, hlt, hgt⟩ := hloc
    refine .inl ⟨i, hi, ?_, ?_, ?_⟩
    · show Turn.down <$> childAt node i = _
      rw [hleads i hi]
      rfl
    · intro j hj
      rw [hlt j (Nat.lt_succ_of_le hj)]
      simp
    · exact fun j hj hjn => hgt j hj hjn

end Turn

/-! ## The way down -/

/-- The records of a leaf whose records are in order answer in order. -/
theorem ascends_of_pairwise {node : Node} (key : κ)
    (hkeys : ∀ i < node.recordCount, ∃ k, o.keyOf ⟨node, i⟩ = .ok k)
    (h : node.hits.Pairwise o.Before) :
    Ascends (probe (o.order key) node) node.recordCount where
  answers i hi := by
    obtain ⟨k, hk⟩ := hkeys i hi
    exact ⟨_, KeyOrder.probe_of_keyOf hk key⟩
  splits i j hij hj := by
    have hpair := List.pairwise_iff_getElem.mp (List.pairwise_map.mp h) i j
      (by simpa using Nat.lt_trans hij hj) (by simpa using hj) hij
    simp only [List.getElem_range] at hpair
    exact hpair.lt_or_gt key

/-- So do those of an index node, which its subtrees keep apart. -/
theorem ascends_of_separated {node : Node} (key : κ) {below : Nat → List Node}
    (hkeys : ∀ i < node.recordCount, ∃ k, o.keyOf ⟨node, i⟩ = .ok k)
    (hne : ∀ i < node.recordCount, ∃ hit, hit ∈ records (below i))
    (lower : ∀ i < node.recordCount, ∀ hit ∈ records (below i),
      o.NotAfter ⟨node, i⟩ hit)
    (upper : ∀ i, i + 1 < node.recordCount → ∀ hit ∈ records (below i),
      o.Before hit ⟨node, i + 1⟩) :
    Ascends (probe (o.order key) node) node.recordCount := by
  refine Ascends.of_neighbours (fun i hi => ?_) (fun i hi => ?_)
  · obtain ⟨k, hk⟩ := hkeys i hi
    exact ⟨_, KeyOrder.probe_of_keyOf hk key⟩
  · obtain ⟨hit, hmem⟩ := hne i (by omega)
    have hbefore := (lower i (by omega) hit hmem).trans_before (upper i hi hit hmem)
    exact hbefore.lt_or_gt key

theorem mem_records_flatMap {n : Nat} {below : Nat → List Node} {hit : Hit} :
    hit ∈ records ((List.range n).flatMap below) ↔
      ∃ i < n, hit ∈ records (below i) := by
  simp only [records, List.mem_flatMap, List.mem_range]
  constructor
  · rintro ⟨leaf, ⟨i, hi, hleaf⟩, hhit⟩
    exact ⟨i, hi, leaf, hleaf, hhit⟩
  · rintro ⟨i, hi, leaf, hleaf, hhit⟩
    exact ⟨leaf, ⟨i, hi, hleaf⟩, hhit⟩

section Separated

variable {key : κ} {node : Node} {below : Nat → List Node} {i j : Nat} {hit : Hit}

/-- Below an index record that is above the key no record is equal. -/
theorem ne_eq_of_gt
    (lower : ∀ i < node.recordCount, ∀ hit ∈ records (below i), o.NotAfter ⟨node, i⟩ hit)
    (hj : j < node.recordCount) (hgt : probe (o.order key) node j = .ok .gt)
    (hmem : hit ∈ records (below j)) :
    probe (o.order key) hit.node hit.index ≠ .ok .eq := by
  rw [(lower j hj hit hmem).gt_of_gt hgt]
  simp

/-- Of the subtrees of an index node, only that of the last record which is not
above the key can hold a record that is equal. -/
theorem eq_of_equal_below
    (lower : ∀ i < node.recordCount, ∀ hit ∈ records (below i), o.NotAfter ⟨node, i⟩ hit)
    (upper : ∀ i, i + 1 < node.recordCount → ∀ hit ∈ records (below i),
      o.Before hit ⟨node, i + 1⟩)
    (hi : i < node.recordCount)
    (hle : ∀ j ≤ i, probe (o.order key) node j ≠ .ok .gt)
    (hgt : ∀ j, i < j → j < node.recordCount → probe (o.order key) node j = .ok .gt)
    (hj : j < node.recordCount) (hmem : hit ∈ records (below j))
    (heq : probe (o.order key) hit.node hit.index = .ok .eq) : j = i := by
  rcases Nat.lt_trichotomy j i with hji | hji | hji
  · have hnext := (upper j (by omega) hit hmem).lt_or_gt key
    rw [heq] at hnext
    exact absurd (hnext.resolve_left (by simp)) (hle (j + 1) hji)
  · exact hji
  · exact absurd heq (ne_eq_of_gt lower hj (hgt j hji hj) hmem)

end Separated

/-- A search that comes to a leaf finds the record of it that is equal, or
nothing. -/
theorem Holds.descend_finds {levels : Nat} {number : UInt32} {node : Node}
    (h : tree.Holds dev o .leaf number node) (hasc : node.hits.Pairwise o.Before)
    (key : κ) (id : CatalogId) :
    (∀ hit ∈ node.hits, probe (o.order key) hit.node hit.index = .ok .eq →
      (descend (tree.readNode dev) (o.order key) id (levels + 1) number).result =
        .ok hit) ∧
    ((∀ hit ∈ node.hits, probe (o.order key) hit.node hit.index ≠ .ok .eq) →
      (descend (tree.readNode dev) (o.order key) id (levels + 1) number).result =
        .error .notFound) := by
  have hascends := ascends_of_pairwise key h.readable hasc
  rw [result_descend_of_load h.loads]
  rcases turn_leaf_of_ascends hascends number h.kind_eq with
    ⟨i, hi, heq, hturn⟩ | ⟨hne, hturn⟩
  · rw [hturn]
    refine ⟨fun hit hmem hhit => ?_, fun hall => ?_⟩
    · obtain ⟨rfl, hlt⟩ := mem_hits.mp hmem
      rw [hascends.eq_of_eq hi hlt heq hhit]
      rfl
    · exact absurd heq (hall ⟨node, i⟩ (mem_hits.mpr ⟨rfl, hi⟩))
  · rw [hturn]
    refine ⟨fun hit hmem hhit => ?_, fun _ => rfl⟩
    obtain ⟨rfl, hlt⟩ := mem_hits.mp hmem
    exact absurd hhit (hne _ hlt)

/-- A descent comes to the record below it that is equal, and ends with
nothing found if there is none. -/
theorem Subtree.descend_finds {levels : Nat} {number : UInt32} {leaves : List Node}
    (h : tree.Subtree dev o levels number leaves)
    (hasc : (records leaves).Pairwise o.Before) (key : κ) (id : CatalogId) :
    (∀ hit ∈ records leaves, probe (o.order key) hit.node hit.index = .ok .eq →
      (descend (tree.readNode dev) (o.order key) id levels number).result =
        .ok hit) ∧
    ((∀ hit ∈ records leaves, probe (o.order key) hit.node hit.index ≠ .ok .eq) →
      (descend (tree.readNode dev) (o.order key) id levels number).result =
        .error .notFound) := by
  induction h with
  | @leaf levels number node holds =>
    rw [records_singleton] at hasc ⊢
    exact holds.descend_finds hasc key id
  | @index levels number node child below holds leads subtrees lower upper ih =>
    have hbelow : ∀ i < node.recordCount,
        (records (below i)).Pairwise o.Before := by
      intro i hi
      rw [records, List.flatMap_assoc] at hasc
      exact (List.pairwise_flatMap.mp hasc).1 i (List.mem_range.mpr hi)
    have hascends := ascends_of_separated key holds.readable
      (fun i hi => (subtrees i hi).exists_record) lower upper
    rw [result_descend_of_load holds.loads]
    rcases turn_index_of_ascends hascends number holds.kind_eq holds.ne_empty
        leads with ⟨i, hi, hturn, hle, hgt⟩ | ⟨hgt, hturn⟩
    · rw [hturn]
      obtain ⟨hfound, hnone⟩ := ih i hi (hbelow i hi)
      refine ⟨fun hit hmem hhit => ?_, fun hall => ?_⟩
      · obtain ⟨j, hj, hmem⟩ := mem_records_flatMap.mp hmem
        obtain rfl := eq_of_equal_below lower upper hi hle hgt hj hmem hhit
        exact hfound hit hmem hhit
      · exact hnone fun hit hmem =>
          hall hit (mem_records_flatMap.mpr ⟨i, hi, hmem⟩)
    · rw [hturn]
      refine ⟨fun hit hmem hhit => ?_, fun _ => rfl⟩
      obtain ⟨j, hj, hmem⟩ := mem_records_flatMap.mp hmem
      exact absurd hhit (ne_eq_of_gt lower hj (hgt j hj) hmem)

/-! ## The way along the leaves -/

theorem Linked.chain {post : List Node} : ∀ {node : Node}, Linked (node :: post) →
    (∀ leaf ∈ post, tree.Holds dev o .leaf leaf.number leaf) →
    (node :: post).Pairwise (fun a b => a.number ≠ b.number) →
    Chain (tree.readNode dev) node post ∧ (post.getLastD node).forwardLink = 0 := by
  induction post with
  | nil =>
    intro node hlinked _ _
    cases hlinked with
    | last link => exact ⟨.nil, link⟩
  | cons next rest ih =>
    intro node hlinked hholds hdistinct
    cases hlinked with
    | cons link ne_zero linked =>
      have hnext := hholds next (by simp)
      obtain ⟨hne, hrest⟩ := List.pairwise_cons.mp hdistinct
      obtain ⟨hchain, hlast⟩ := ih linked (fun leaf hleaf => hholds leaf (by simp [hleaf])) hrest
      refine ⟨.cons ne_zero ?_ ?_ hnext.kind_eq hnext.ne_empty hchain, ?_⟩
      · rw [link]
        exact (hne next (by simp)).symm
      · rw [link]
        exact hnext.loads
      · rw [List.getLastD_cons]
        exact hlast

/-- Counting on along linked leaves comes to the record so many places behind,
in the concatenation of the leaves. -/
theorem advance_linked {node : Node} {post : List Node} {index skip hops : Nat}
    (hlinked : Linked (node :: post))
    (hholds : ∀ leaf ∈ post, tree.Holds dev o .leaf leaf.number leaf)
    (hdistinct : (node :: post).Pairwise fun a b => a.number ≠ b.number)
    (hindex : index ≤ node.recordCount) (hhops : post.length ≤ hops) :
    (advance (tree.readNode dev) tree hops node index skip).result =
      report ((records (node :: post))[index + skip]?) := by
  obtain ⟨hchain, hlast⟩ := hlinked.chain hholds hdistinct
  rw [result_advance_chain hchain hhops hindex]
  cases (records (node :: post))[index + skip]? with
  | some hit => rfl
  | none =>
    refine result_advance_of_end ?_ hlast
    rw [Nat.sub_self]
    exact Nat.zero_le _

/-! ## The search -/

/-- The place of a record fixes its leaf, and with it the rest of the list. -/
theorem exists_split_of_getElem? {leaves : List Node} : ∀ {i : Nat} {hit : Hit},
    (records leaves)[i]? = some hit →
    ∃ pre post, leaves = pre ++ hit.node :: post ∧
      hit.index < hit.node.recordCount ∧
      ∀ j, (records leaves)[i + j]? =
        (records (hit.node :: post))[hit.index + j]? := by
  induction leaves with
  | nil =>
    intro i hit h
    cases h
  | cons node rest ih =>
    intro i hit h
    rw [getElem?_records_cons] at h
    split at h
    · next hi =>
      cases h
      exact ⟨[], rest, rfl, hi, fun j => rfl⟩
    · next hi =>
      obtain ⟨pre, post, heq, hlt, hj⟩ := ih h
      refine ⟨node :: pre, post, by rw [heq]; rfl, hlt, fun j => ?_⟩
      rw [getElem?_records_cons, if_neg (by omega), ← hj]
      congr 1
      omega

theorem result_search (dev : Device) {order : KeyedRecord → Except Error Ordering}
    (hroot : tree.rootNode ≠ 0) (skip : Nat) :
    (tree.search dev order skip).result =
      (descend (tree.readNode dev) order tree.id maxDepth
        tree.rootNode).result.bind fun hit =>
          (advance (tree.readNode dev) tree (tree.totalNodes.toNat - 1) hit.node
            hit.index skip).result := by
  rw [search, searchWith, if_neg hroot, Run.result_bind]

section Search

variable {leaves : List Node}

/-- Where record `i` is equal, a search reports the record `skip` places
behind it, or that there is none. -/
theorem WellFormed.result_search_of_equal (h : tree.WellFormed dev o leaves)
    {key : κ} (skip : Nat) {i : Nat} {hit : Hit}
    (hi : (records leaves)[i]? = some hit)
    (heq : probe (o.order key) hit.node hit.index = .ok .eq) :
    (tree.search dev (o.order key) skip).result =
      report ((records leaves)[i + skip]?) := by
  obtain ⟨hfound, -⟩ := h.subtree.descend_finds h.ascending key tree.id
  obtain ⟨pre, post, hleaves, hlt, hplace⟩ := exists_split_of_getElem? hi
  rw [result_search dev h.root_ne_zero, hfound hit (List.mem_of_getElem? hi) heq,
    hplace]
  have hlinked : Linked (hit.node :: post) := (hleaves ▸ h.linked).of_append
  have hdistinct :=
    (List.pairwise_append.mp (hleaves ▸ h.numbers_distinct)).2.1
  have hlength := h.length_le
  rw [hleaves, List.length_append, List.length_cons] at hlength
  exact advance_linked hlinked
    (fun leaf hleaf => h.holds_of_mem (by simp [hleaves, hleaf])) hdistinct
    (Nat.le_of_lt hlt) (by omega)

/-- Where no record is equal, a search finds nothing. -/
theorem WellFormed.result_search_of_absent (h : tree.WellFormed dev o leaves)
    {key : κ} (skip : Nat)
    (hall : ∀ hit ∈ records leaves,
      probe (o.order key) hit.node hit.index ≠ .ok .eq) :
    (tree.search dev (o.order key) skip).result = .error .notFound := by
  obtain ⟨-, hnone⟩ := h.subtree.descend_finds h.ascending key tree.id
  rw [result_search dev h.root_ne_zero, hnone hall]
  rfl

/-- A search answers what a scan of the leaf records would: with the record
`skip` places behind the one that is equal, or with nothing found if the leaves
end before that or none is equal. -/
theorem search_eq_scan (h : tree.WellFormed dev o leaves) (key : κ) (skip : Nat) :
    (∀ i hit, (records leaves)[i]? = some hit →
      probe (o.order key) hit.node hit.index = .ok .eq →
      (tree.search dev (o.order key) skip).result =
        report ((records leaves)[i + skip]?)) ∧
    ((∀ hit ∈ records leaves, probe (o.order key) hit.node hit.index ≠ .ok .eq) →
      (tree.search dev (o.order key) skip).result = .error .notFound) :=
  ⟨fun _ _ hi heq => h.result_search_of_equal skip hi heq,
    h.result_search_of_absent skip⟩

end Search

/-! ### A sample

Two leaves below a root, with the keys of a catalog, in nodes of two blocks. -/

/-- The nodes 1 to 3. -/
def sampleImage : Array UInt8 := #[
  -- A leaf: the thread record of folder 2, and its entry A.
  0, 0, 0, 2, 0, 0, 0, 0, 0xFF, 1, 0, 2, 0, 0,
  0, 6, 0, 0, 0, 2, 0, 0, 0, 3, 0, 0, 0, 0, 0, 1, 0, 0,
  0, 8, 0, 0, 0, 2, 0, 1, 0, 0x41, 0, 9,
  0, 0, 0, 44, 0, 32, 0, 14,
  -- A leaf: the entry b of folder 2, and the thread record of folder 3.
  0, 0, 0, 0, 0, 0, 0, 1, 0xFF, 1, 0, 2, 0, 0,
  0, 8, 0, 0, 0, 2, 0, 1, 0, 0x62, 0, 9,
  0, 6, 0, 0, 0, 3, 0, 0, 0, 3, 0, 0, 0, 0, 0, 2, 0, 0,
  0, 0, 0, 44, 0, 26, 0, 14,
  -- The root: the first key of each leaf.
  0, 0, 0, 0, 0, 0, 0, 0, 0, 2, 0, 2, 0, 0,
  0, 6, 0, 0, 0, 2, 0, 0, 0, 0, 0, 1,
  0, 8, 0, 0, 0, 2, 0, 1, 0, 0x62, 0, 0, 0, 2,
  0, 0, 0, 0, 0, 0, 0, 40, 0, 26, 0, 14]

def sampleDevice : Device := (Device.ofImage sampleImage).withBlockSize 26

/-- No search comes to node 0, whose blocks the image does not have. -/
def sampleTree : Tree where
  id := .catalogFile
  fork := {
    size := 208
    extents :=
      #v[⟨6, 2⟩, ⟨0, 6⟩, .unused, .unused, .unused, .unused, .unused, .unused] }
  rootNode := 3
  nodeSize := 52
  totalNodes := 4

def sampleLeft : Node where
  number := 1
  descriptor := {
    forwardLink := 2
    backwardLink := 0
    kind := -1
    height := 1
    recordCount := 2
    reserved := 0 }
  data := sampleImage.extract 0 52

def sampleRight : Node where
  number := 2
  descriptor := {
    forwardLink := 0
    backwardLink := 1
    kind := -1
    height := 1
    recordCount := 2
    reserved := 0 }
  data := sampleImage.extract 52 104

def sampleRoot : Node where
  number := 3
  descriptor := {
    forwardLink := 0
    backwardLink := 0
    kind := 0
    height := 2
    recordCount := 2
    reserved := 0 }
  data := sampleImage.extract 104 156

theorem sample_loads_left :
    (sampleTree.readNode sampleDevice 1).result = .ok sampleLeft := by
  cbv

theorem sample_loads_right :
    (sampleTree.readNode sampleDevice 2).result = .ok sampleRight := by
  cbv

theorem sample_loads_root :
    (sampleTree.readNode sampleDevice 3).result = .ok sampleRoot := by
  cbv

theorem forall_lt_two {P : Nat → Prop} (h0 : P 0) (h1 : P 1) : ∀ i < 2, P i := by
  intro i hi
  obtain rfl | rfl : i = 0 ∨ i = 1 := by omega
  · exact h0
  · exact h1

/-- The sample is well-formed in every order in which its keys ascend. -/
theorem sample_wellFormed {a b c d : κ}
    (hroot : sampleRoot.hits.map o.keyOf = [a, c].map .ok)
    (hleft : sampleLeft.hits.map o.keyOf = [a, b].map .ok)
    (hright : sampleRight.hits.map o.keyOf = [c, d].map .ok)
    (hkeys : ([a, b] ++ [c, d]).Pairwise fun j k => o.cmp j k = .lt) :
    sampleTree.WellFormed sampleDevice o [sampleLeft, sampleRight] where
  root_ne_zero := by decide
  subtree := by
    have hfirst : o.keyOf ⟨sampleRoot, 0⟩ = .ok a := (List.cons.inj hroot).1
    have hsecond : o.keyOf ⟨sampleRoot, 1⟩ = .ok c :=
      (List.cons.inj (List.cons.inj hroot).2).1
    obtain ⟨hpre, hpost, hcross⟩ := List.pairwise_append.mp hkeys
    refine @Subtree.index κ sampleDevice sampleTree o 15 3 sampleRoot
      (fun i => if i = 0 then 1 else 2)
      (fun i => if i = 0 then [sampleLeft] else [sampleRight])
      ⟨sample_loads_root, rfl, by decide, readable_of_keys hroot⟩ ?_ ?_ ?_ ?_
    · exact forall_lt_two (by cbv) (by cbv)
    · exact forall_lt_two
        (.leaf ⟨sample_loads_left, rfl, by decide, readable_of_keys hleft⟩)
        (.leaf ⟨sample_loads_right, rfl, by decide, readable_of_keys hright⟩)
    · refine forall_lt_two (fun hit hmem => ?_) (fun hit hmem => ?_)
      · exact KeyOrder.notAfter_of_keys hfirst hleft hpre
          (records_singleton sampleLeft ▸ hmem)
      · exact KeyOrder.notAfter_of_keys hsecond hright hpost
          (records_singleton sampleRight ▸ hmem)
    · intro i hi hit hmem
      obtain rfl : i = 0 := Nat.lt_one_iff.mp (Nat.lt_of_succ_lt_succ hi)
      obtain ⟨k, hk, hkey⟩ :=
        KeyOrder.exists_key_of_mem hleft (records_singleton sampleLeft ▸ hmem)
      rw [KeyOrder.Before, KeyOrder.compareHits_of_keyOf hkey hsecond,
        hcross k hk c (by simp)]
  ascending := by
    refine (KeyOrder.pairwise_before_iff ?_).mpr hkeys
    rw [List.map_append, ← hleft, ← hright]
    rfl
  linked := .cons rfl (by decide) (.last rfl)
  length_le := by decide

/-- Keys compare as strings of bytes. -/
def byBytes : KeyOrder Bytes where
  read r := .ok r.key
  cmp := compare
  trans := inferInstance

theorem sampleRoot_bytes : sampleRoot.hits.map byBytes.keyOf =
    [[0, 0, 0, 2, 0, 0], [0, 0, 0, 2, 0, 1, 0, 0x62]].map .ok := by
  cbv

theorem sampleLeft_bytes : sampleLeft.hits.map byBytes.keyOf =
    [[0, 0, 0, 2, 0, 0], [0, 0, 0, 2, 0, 1, 0, 0x41]].map .ok := by
  cbv

theorem sampleRight_bytes : sampleRight.hits.map byBytes.keyOf =
    [[0, 0, 0, 2, 0, 1, 0, 0x62], [0, 0, 0, 3, 0, 0]].map .ok := by
  cbv

/-- The record two places behind the first is the first of the next leaf. -/
theorem search_sample_across_leaves :
    sampleTree.WellFormed sampleDevice byBytes [sampleLeft, sampleRight] ∧
    (sampleTree.search sampleDevice (byBytes.order [0, 0, 0, 2, 0, 0]) 2).result =
      .ok ⟨sampleRight, 0⟩ := by
  have h := sample_wellFormed sampleRoot_bytes sampleLeft_bytes sampleRight_bytes
    (by decide)
  have hkey : byBytes.keyOf ⟨sampleLeft, 0⟩ = .ok [0, 0, 0, 2, 0, 0] :=
    (List.cons.inj sampleLeft_bytes).1
  refine ⟨h, (search_eq_scan h [0, 0, 0, 2, 0, 0] 2).1 0 ⟨sampleLeft, 0⟩ rfl ?_⟩
  rw [KeyOrder.probe_of_keyOf hkey]
  exact congrArg Except.ok Std.ReflCmp.compare_self

end HfsPlus.Tree
