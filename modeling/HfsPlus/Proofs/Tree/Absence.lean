import HfsPlus.Proofs.Tree.Node
import HfsPlus.Proofs.Tree.Step

/-!
# When a record is not there

A caller takes it for an answer when a search finds nothing: the name is not
there, the folder is at its end. `Absence` lists what makes that answer true.
The tree is empty, or the node that the key leads to does not have it, or the
last leaf is passed before enough records are counted.

A node that has been loaded ends a search in three ways (`error_of_turn`): it is
damaged, it does not have the key, or the order that the search was given fails
on one of its records.
-/

namespace HfsPlus.Tree

variable {load : UInt32 → Run Node} {order : KeyedRecord → Except Error Ordering}
  {node : Node} {number : UInt32} {e : Error}

/-- The descent from this node comes to `last`. -/
inductive Reaches (load : UInt32 → Run Node)
    (order : KeyedRecord → Except Error Ordering) :
    (levels : Nat) → (number : UInt32) → (last : Node) → Prop where
  | here {levels : Nat} {number : UInt32} {node : Node}
      (loads : (load number).result = .ok node) :
      Reaches load order (levels + 1) number node
  | down {levels : Nat} {number child : UInt32} {node last : Node}
      (loads : (load number).result = .ok node)
      (leads : turn order number node = .ok (.down child))
      (rest : Reaches load order levels child last) :
      Reaches load order (levels + 1) number last

/-- The key is not in this node. In a leaf, which may be empty, bisection ends
in a gap, and in an index node in front of all records. An order that itself
answers so about a record of the node is taken at its word. -/
inductive LacksKey (order : KeyedRecord → Except Error Ordering) (node : Node) :
    Prop where
  | leaf {smaller : Nat} (kind_eq : node.kind = .ok .leaf)
      (gap : bisect (probe order node) 0 node.recordCount = .ok (.gap smaller))
  | index (kind_eq : node.kind = .ok .index) (ne_empty : node.recordCount ≠ 0)
      (gap : bisect (probe order node) 0 node.recordCount = .ok (.gap 0))
  | refused {i : Nat} {r : KeyedRecord} (lt : i < node.recordCount)
      (record : node.keyedRecord i = .ok r) (answer : order r = .error .notFound)

/-- Counting on over `skip` records from record `index` of a leaf passes a leaf
that links to none. -/
inductive PassesEnd (load : UInt32 → Run Node) :
    (node : Node) → (index skip : Nat) → Prop where
  | last {node : Node} {index skip : Nat}
      (short : node.recordCount - index ≤ skip) (link : node.forwardLink = 0) :
      PassesEnd load node index skip
  | next {node sibling : Node} {index skip : Nat}
      (short : node.recordCount - index ≤ skip)
      (loads : (readSibling load node.forwardLink).result = .ok sibling)
      (rest : PassesEnd load sibling 0 (skip - (node.recordCount - index))) :
      PassesEnd load node index skip

/-- The record that a search is after is not in the tree. -/
inductive Absence (load : UInt32 → Run Node) (tree : Tree)
    (order : KeyedRecord → Except Error Ordering) (skip : Nat) : Prop where
  | emptyTree (root : tree.rootNode = 0)
  | noKey {last : Node} (reached : Reaches load order maxDepth tree.rootNode last)
      (lacks : LacksKey order last)
  | noMore {hit : Hit}
      (found : (descend load order tree.id maxDepth tree.rootNode).result = .ok hit)
      (passes : PassesEnd load hit.node hit.index skip)

/-! ## One node -/

theorem onlyDamage_childAt (node : Node) (index : Nat) :
    OnlyDamage (childAt node index) :=
  (node.onlyDamage_keyedRecord index).bind KeyedRecord.onlyDamage_child

/-- What a node that was loaded may answer to a search instead of a turn. -/
inductive NodeError (order : KeyedRecord → Except Error Ordering) (node : Node) : Error → Prop where
  | damage (damage : Damage) : NodeError order node (.corrupted damage)
  | absent (lacks : LacksKey order node) : NodeError order node .notFound
  | refused {r : KeyedRecord} {e : Error} (ne_notFound : e ≠ .notFound)
      (answer : order r = .error e) : NodeError order node e

theorem NodeError.of_onlyDamage {α : Type} {x : Except Error α} (h : OnlyDamage x)
    (he : x = .error e) : NodeError order node e := by
  obtain ⟨damage, rfl⟩ := h e he
  exact .damage damage

theorem NodeError.of_bisect (h : bisect (probe order node) 0 node.recordCount = .error e) :
    NodeError order node e := by
  obtain ⟨i, hi, hprobe⟩ := exists_of_bisect_eq_error h
  rcases error_or_exists_of_bind_eq_error hprobe with hrecord | ⟨r, hrecord, horder⟩
  · exact .of_onlyDamage (node.onlyDamage_keyedRecord i) hrecord
  · by_cases hnone : e = .notFound
    · rw [hnone] at horder ⊢
      exact .absent (.refused hi hrecord horder)
    · exact .refused hnone horder

/-- How a search ends at a node. -/
theorem error_of_turn (h : turn order number node = .error e) : NodeError order node e := by
  cases hkind : node.kind with
  | error e' =>
    rw [turn, hkind] at h
    cases h
    exact .of_onlyDamage node.onlyDamage_kind hkind
  | ok kind =>
    cases kind with
    | leaf =>
      rw [turn_leaf number hkind] at h
      rcases error_or_exists_of_bind_eq_error h with h | ⟨position, hposition, h⟩
      · exact .of_bisect h
      · cases position with
        | found index => cases h
        | gap smaller =>
          cases h
          exact .absent (.leaf hkind hposition)
    | index =>
      by_cases hempty : node.recordCount = 0
      · rw [turn_empty_index order number hkind hempty] at h
        cases h
        exact .damage _
      · rw [turn_index number hkind hempty] at h
        rcases error_or_exists_of_bind_eq_error h with h | ⟨position, hposition, h⟩
        · exact .of_bisect h
        · rcases position with index | _ | index
          · exact .of_onlyDamage (onlyDamage_childAt node _) (map_eq_error_iff.mp h)
          · cases h
            exact .absent (.index hkind hempty hposition)
          · exact .of_onlyDamage (onlyDamage_childAt node _) (map_eq_error_iff.mp h)
    | header =>
      rw [turn, hkind] at h
      cases h
      exact .damage _
    | map =>
      rw [turn, hkind] at h
      cases h
      exact .damage _

end HfsPlus.Tree
