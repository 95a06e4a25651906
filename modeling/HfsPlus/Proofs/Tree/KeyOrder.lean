import HfsPlus.Proofs.Tree.Bisect
import HfsPlus.Tree.Search

/-!
# Searching by an order of keys

A search is handed a function that places a record against the key it looks
for, and asks nothing of it. A `KeyOrder` is where such a function comes from
when the records do have an order: a way to read a record's key, and a total
preorder on keys. The same preorder then places two records against each
other, and what it says about them carries over to every key that is looked
for: `Before.lt_or_gt` is the fact that bisection needs inside a node, and
`NotAfter.gt_of_gt` the one that an index record needs for the records below.
-/

namespace HfsPlus

/-- A total preorder on the keys of a tree's records. -/
structure KeyOrder (κ : Type) where
  /-- Reads the key of a record. -/
  read : KeyedRecord → Except Error κ
  /-- Compares two keys. -/
  cmp : κ → κ → Ordering
  /-- Keys that differ compare one way only, and one after the other. -/
  trans : Std.TransCmp cmp

namespace KeyOrder

variable {κ : Type} {o : KeyOrder κ} {a b c : Hit} {key : κ}

instance (o : KeyOrder κ) : Std.TransCmp o.cmp := o.trans

/-- How a record stands to a key. -/
def order (o : KeyOrder κ) (key : κ) (r : KeyedRecord) : Except Error Ordering := do
  return o.cmp (← o.read r) key

/-- The key of a record of a node. -/
def keyOf (o : KeyOrder κ) (hit : Hit) : Except Error κ := do
  o.read (← hit.keyedRecord)

/-- How one record stands to another. -/
def compareHits (o : KeyOrder κ) (a b : Hit) : Except Error Ordering := do
  return o.cmp (← o.keyOf a) (← o.keyOf b)

/-- The key of `a` is readable and below that of `b`. -/
def Before (o : KeyOrder κ) (a b : Hit) : Prop := o.compareHits a b = .ok .lt

/-- The key of `a` is readable and not above that of `b`. -/
def NotAfter (o : KeyOrder κ) (a b : Hit) : Prop :=
  o.compareHits a b = .ok .lt ∨ o.compareHits a b = .ok .eq

theorem probe_eq (o : KeyOrder κ) (key : κ) (hit : Hit) :
    Tree.probe (o.order key) hit.node hit.index = (o.cmp · key) <$> o.keyOf hit := by
  rw [Tree.probe, keyOf, Hit.keyedRecord]
  cases hit.node.keyedRecord hit.index <;> rfl

theorem probe_of_keyOf {hit : Hit} {k : κ} (h : o.keyOf hit = .ok k) (key : κ) :
    Tree.probe (o.order key) hit.node hit.index = .ok (o.cmp k key) := by
  rw [probe_eq, h]
  rfl

theorem compareHits_of_keyOf {j k : κ} (ha : o.keyOf a = .ok j)
    (hb : o.keyOf b = .ok k) : o.compareHits a b = .ok (o.cmp j k) := by
  rw [compareHits, ha, hb]
  rfl

theorem exists_of_compareHits {c : Ordering} (h : o.compareHits a b = .ok c) :
    ∃ j k, o.keyOf a = .ok j ∧ o.keyOf b = .ok k ∧ o.cmp j k = c := by
  rw [compareHits] at h
  cases ha : o.keyOf a with
  | error e => rw [ha] at h; cases h
  | ok j =>
    cases hb : o.keyOf b with
    | error e => rw [ha, hb] at h; cases h
    | ok k =>
      rw [ha, hb] at h
      cases h
      exact ⟨j, k, rfl, rfl, rfl⟩

/-- No key lies behind the greater of two records and not behind the
smaller one. -/
theorem Before.lt_or_gt (h : o.Before a b) (key : κ) :
    Tree.probe (o.order key) a.node a.index = .ok .lt ∨
      Tree.probe (o.order key) b.node b.index = .ok .gt := by
  obtain ⟨j, k, hj, hk, hlt⟩ := exists_of_compareHits h
  rw [probe_of_keyOf hj, probe_of_keyOf hk]
  cases hjk : o.cmp j key with
  | lt => exact .inl rfl
  | eq =>
    have := Std.TransCmp.lt_of_eq_of_lt (Std.OrientedCmp.eq_symm hjk) hlt
    exact .inr (by rw [Std.OrientedCmp.gt_of_lt this])
  | gt =>
    have := Std.TransCmp.lt_trans (Std.OrientedCmp.lt_of_gt hjk) hlt
    exact .inr (by rw [Std.OrientedCmp.gt_of_lt this])

theorem NotAfter.exists_isLE (h : o.NotAfter a b) :
    ∃ j k, o.keyOf a = .ok j ∧ o.keyOf b = .ok k ∧ (o.cmp j k).isLE := by
  rcases h with h | h
  · obtain ⟨j, k, hj, hk, hc⟩ := exists_of_compareHits h
    exact ⟨j, k, hj, hk, by rw [hc]; rfl⟩
  · obtain ⟨j, k, hj, hk, hc⟩ := exists_of_compareHits h
    exact ⟨j, k, hj, hk, by rw [hc]; rfl⟩

/-- What is above a key is still above it further on. -/
theorem NotAfter.gt_of_gt (h : o.NotAfter a b)
    (ha : Tree.probe (o.order key) a.node a.index = .ok .gt) :
    Tree.probe (o.order key) b.node b.index = .ok .gt := by
  obtain ⟨j, k, hj, hk, hle⟩ := h.exists_isLE
  rw [probe_of_keyOf hj] at ha
  rw [probe_of_keyOf hk]
  have hgt : o.cmp j key = .gt := by injection ha
  have := Std.TransCmp.lt_of_lt_of_isLE (Std.OrientedCmp.lt_of_gt hgt) hle
  rw [Std.OrientedCmp.gt_of_lt this]

theorem NotAfter.trans_before (hab : o.NotAfter a b) (hbc : o.Before b c) :
    o.Before a c := by
  obtain ⟨j, k, hj, hk, hle⟩ := hab.exists_isLE
  obtain ⟨k', l, hk', hl, hlt⟩ := exists_of_compareHits hbc
  obtain rfl : k = k' := by
    rw [hk] at hk'
    injection hk'
  rw [Before, compareHits_of_keyOf hj hl, Std.TransCmp.lt_of_isLE_of_lt hle hlt]

theorem Before.irrefl (hit : Hit) : ¬ o.Before hit hit := by
  intro h
  obtain ⟨j, k, hj, hk, hlt⟩ := exists_of_compareHits h
  obtain rfl : j = k := by
    rw [hj] at hk
    injection hk
  have heq : o.cmp j j = .eq := Std.ReflCmp.compare_self
  rw [heq] at hlt
  cases hlt

/-! ## Records whose keys are known

Read into a list of keys, records can be compared by their keys alone. -/

section Keys

variable {hits : List Hit} {keys : List κ}

theorem exists_key_of_mem {hit : Hit} (h : hits.map o.keyOf = keys.map .ok)
    (hmem : hit ∈ hits) : ∃ k ∈ keys, o.keyOf hit = .ok k := by
  have hkey : o.keyOf hit ∈ keys.map .ok := h ▸ List.mem_map_of_mem hmem
  obtain ⟨k, hk, heq⟩ := List.mem_map.mp hkey
  exact ⟨k, hk, heq.symm⟩

/-- Records are in order if and only if their keys are. -/
theorem pairwise_before_iff (h : hits.map o.keyOf = keys.map .ok) :
    hits.Pairwise o.Before ↔ keys.Pairwise fun j k => o.cmp j k = .lt := by
  let R (x y : Except Error κ) : Prop :=
    (do return o.cmp (← x) (← y)) = (.ok .lt : Except Error Ordering)
  have hmap : hits.Pairwise o.Before ↔ (hits.map o.keyOf).Pairwise R :=
    (List.pairwise_map (R := R)).symm
  rw [hmap, h, List.pairwise_map]
  constructor
  · exact List.Pairwise.imp fun hlt => by injection hlt
  · exact List.Pairwise.imp fun hlt => congrArg Except.ok hlt

/-- A record with the first of these keys is not behind any that has one of
them. -/
theorem notAfter_of_keys {first hit : Hit} {k : κ}
    (hfirst : o.keyOf first = .ok k)
    (h : hits.map o.keyOf = (k :: keys).map .ok)
    (hkeys : (k :: keys).Pairwise fun j k => o.cmp j k = .lt)
    (hmem : hit ∈ hits) : o.NotAfter first hit := by
  obtain ⟨l, hl, heq⟩ := exists_key_of_mem h hmem
  rw [NotAfter, compareHits_of_keyOf hfirst heq]
  rcases List.mem_cons.mp hl with rfl | hl
  · have hself : o.cmp l l = .eq := Std.ReflCmp.compare_self
    exact .inr (by rw [hself])
  · exact .inl (by rw [(List.pairwise_cons.mp hkeys).1 l hl])

end Keys

end KeyOrder

end HfsPlus
