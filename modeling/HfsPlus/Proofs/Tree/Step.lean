import HfsPlus.Proofs.Run
import HfsPlus.Proofs.Tree.Bisect
import HfsPlus.Tree.Search

/-!
# One step down, one step along

A search is two walks. On the way down a node either holds the record that is
looked for, or names the node to look in next, or ends the search; `turn` is
that decision, made from the node alone. Along the leaves the decision is
plain arithmetic, and what can still go wrong is the next leaf, which
`readSibling` loads and checks.

`descend_succ` and `advance_eq` say that the two walks are these steps and
nothing else. Every statement about a search is proved over them, so no later
proof takes the walks themselves apart.
-/

namespace HfsPlus.Tree

/-- Where a search goes from a node. -/
inductive Turn where
  /-- Nowhere: the record at this index is the one. -/
  | hit (index : Nat)
  /-- To the node below. -/
  | down (child : UInt32)
deriving DecidableEq, Repr

/-- The decision at a node that was loaded under `number`. -/
def turn (order : KeyedRecord → Except Error Ordering) (number : UInt32)
    (node : Node) : Except Error Turn := do
  match ← node.kind with
  | .leaf =>
    match ← bisect (probe order node) 0 node.recordCount with
    | .found index => return .hit index
    | .gap _ => throw .notFound
  | .index =>
    if node.recordCount = 0 then
      throw (.corrupted (.emptyIndexNode number))
    else
      match ← bisect (probe order node) 0 node.recordCount with
      | .gap 0 => throw .notFound
      | .found index | .gap (index + 1) => return .down (← childAt node index)
  | kind => throw (.corrupted (.unsearchableNode kind number))

theorem turn_leaf {order : KeyedRecord → Except Error Ordering} {node : Node}
    (number : UInt32) (hkind : node.kind = .ok .leaf) :
    turn order number node =
      bisect (probe order node) 0 node.recordCount >>= fun
        | .found index => .ok (.hit index)
        | .gap _ => .error .notFound := by
  rw [turn, hkind]
  rfl

theorem turn_index {order : KeyedRecord → Except Error Ordering} {node : Node}
    (number : UInt32) (hkind : node.kind = .ok .index)
    (hne : node.recordCount ≠ 0) :
    turn order number node =
      bisect (probe order node) 0 node.recordCount >>= fun
        | .gap 0 => .error .notFound
        | .found index | .gap (index + 1) => Turn.down <$> childAt node index := by
  rw [turn, hkind]
  show (if node.recordCount = 0 then _ else _) = _
  rw [if_neg hne]
  rfl

theorem turn_empty_index (order : KeyedRecord → Except Error Ordering) {node : Node}
    (number : UInt32) (hkind : node.kind = .ok .index) (hempty : node.recordCount = 0) :
    turn order number node = .error (.corrupted (.emptyIndexNode number)) := by
  rw [turn, hkind]
  show (if node.recordCount = 0 then _ else _) = _
  rw [if_pos hempty]
  rfl

section Inversion

variable {order : KeyedRecord → Except Error Ordering} {number : UInt32} {node : Node}

/-- An index node leads to the child of one of its records. -/
theorem exists_child_of_turn {t : Turn} (hkind : node.kind = .ok .index)
    (h : turn order number node = .ok t) :
    ∃ i < node.recordCount, ∃ child, childAt node i = .ok child ∧ t = .down child := by
  by_cases hempty : node.recordCount = 0
  · rw [turn_empty_index order number hkind hempty] at h
    cases h
  · rw [turn_index number hkind hempty] at h
    obtain ⟨position, hposition, h⟩ := exists_of_bind_eq_ok h
    have hdown : ∀ i, Turn.down <$> childAt node i = .ok t →
        ∃ child, childAt node i = .ok child ∧ t = .down child := by
      intro i hmap
      cases hchild : childAt node i with
      | error e =>
        rw [hchild] at hmap
        cases hmap
      | ok child =>
        rw [hchild] at hmap
        cases hmap
        exact ⟨child, rfl, rfl⟩
    rcases position with i | _ | i
    · exact ⟨i, (equal_of_bisect hposition).1, hdown i h⟩
    · cases h
    · exact ⟨i, le_of_bisect_eq_gap (Nat.zero_le _) hposition, hdown i h⟩

/-- A search ends with a hit at a leaf only, at a record that is equal. -/
theorem leaf_of_turn_eq_hit {index : Nat} (h : turn order number node = .ok (.hit index)) :
    node.kind = .ok .leaf ∧ index < node.recordCount ∧
      probe order node index = .ok .eq := by
  obtain ⟨kind, hkind, hturn⟩ := exists_of_bind_eq_ok h
  cases kind with
  | leaf =>
    obtain ⟨position, hposition, hturn⟩ := exists_of_bind_eq_ok hturn
    cases position with
    | found i =>
      cases hturn
      exact ⟨hkind, equal_of_bisect hposition⟩
    | gap smaller => cases hturn
  | index =>
    obtain ⟨i, -, child, -, hdown⟩ := exists_child_of_turn hkind h
    cases hdown
  | header => cases hturn
  | map => cases hturn

/-- A search goes down from an index node only, to the child of one of its
records. -/
theorem index_of_turn_eq_down {child : UInt32}
    (h : turn order number node = .ok (.down child)) :
    node.kind = .ok .index ∧ ∃ i < node.recordCount, childAt node i = .ok child := by
  obtain ⟨kind, hkind, hturn⟩ := exists_of_bind_eq_ok h
  cases kind with
  | leaf =>
    obtain ⟨position, -, hturn⟩ := exists_of_bind_eq_ok hturn
    cases position <;> cases hturn
  | index =>
    obtain ⟨i, hi, c, hchild, hdown⟩ := exists_child_of_turn hkind h
    cases hdown
    exact ⟨hkind, i, hi, hchild⟩
  | header => cases hturn
  | map => cases hturn

end Inversion

/-- Loads the next leaf of a walk, which has to be a leaf and not empty. -/
def readSibling (load : UInt32 → Run Node) (next : UInt32) : Run Node := do
  let sibling ← load next
  if (← sibling.kind) ≠ .leaf then
    Run.fail (.corrupted (.siblingNotLeaf next))
  else if sibling.recordCount = 0 then
    Run.fail (.corrupted (.emptySibling next))
  else
    return sibling

/-- One step of the way down. -/
theorem descend_succ (load : UInt32 → Run Node)
    (order : KeyedRecord → Except Error Ordering) (id : CatalogId)
    (levels : Nat) (number : UInt32) :
    descend load order id (levels + 1) number = (do
      let node ← load number
      match ← turn order number node with
      | .hit index => return { node, index }
      | .down child =>
        Run.note (.descending id child)
        descend load order id levels child) := by
  rw [descend]
  congr 1
  funext node
  rw [turn, liftM_bind, bind_assoc]
  congr 1
  funext kind
  cases kind with
  | leaf =>
    simp only []
    rw [liftM_bind, bind_assoc]
    congr 1
    funext position
    cases position <;> rfl
  | index =>
    simp only []
    by_cases hc : node.recordCount = 0
    · rw [if_pos hc, if_pos hc]
      rfl
    · rw [if_neg hc, if_neg hc, liftM_bind, bind_assoc]
      congr 1
      funext position
      rcases position with index | _ | index
      · simp only [liftM_bind, bind_assoc]
        rfl
      · rfl
      · simp only [liftM_bind, bind_assoc]
        rfl
  | header => rfl
  | map => rfl

section Results

variable {load : UInt32 → Run Node} {order : KeyedRecord → Except Error Ordering}
  {id : CatalogId} {levels : Nat} {number : UInt32} {node : Node}

theorem result_descend_of_load_error {e : Error}
    (hload : (load number).result = .error e) :
    (descend load order id (levels + 1) number).result = .error e := by
  rw [descend_succ, Run.result_bind_of_error hload]

/-- A step down, with the node at hand, is decided by its turn. -/
theorem result_descend_of_load (hload : (load number).result = .ok node) :
    (descend load order id (levels + 1) number).result =
      (turn order number node).bind fun
        | .hit index => .ok { node, index }
        | .down child => (descend load order id levels child).result := by
  rw [descend_succ, Run.result_bind_of_ok hload, Run.result_bind,
    Run.result_liftM]
  congr 1
  funext t
  cases t with
  | hit index => rfl
  | down child => rw [Run.result_bind_of_ok (Run.result_note _)]

end Results

/-- One step along the leaves. -/
theorem advance_eq (load : UInt32 → Run Node) (tree : Tree) (hops : Nat)
    (node : Node) (index skip : Nat) :
    advance load tree hops node index skip =
      if skip < node.recordCount - index then
        return { node, index := index + skip }
      else if node.forwardLink = 0 then
        Run.fail .notFound
      else if node.forwardLink = node.number then
        Run.fail (.corrupted (.selfLink node.forwardLink))
      else
        match hops with
        | 0 => Run.fail (.corrupted (.endlessSiblings tree.id tree.totalNodes))
        | hops + 1 => (do
          let sibling ← readSibling load node.forwardLink
          advance load tree hops sibling 0 (skip - (node.recordCount - index))) := by
  cases hops with
  | zero => rw [advance]
  | succ hops =>
    rw [advance]
    simp only [readSibling, bind_assoc]
    split
    · rfl
    · split
      · rfl
      · split
        · rfl
        · congr 1
          funext sibling
          congr 1
          funext kind
          by_cases hk : kind ≠ .leaf
          · rw [if_pos hk, if_pos hk]
            rfl
          · rw [if_neg hk, if_neg hk]
            split
            · rfl
            · rw [pure_bind]

section Results

variable {load : UInt32 → Run Node} {tree : Tree} {hops : Nat} {node : Node}
  {index skip : Nat}

theorem result_advance_of_lt (h : skip < node.recordCount - index) :
    (advance load tree hops node index skip).result =
      .ok { node, index := index + skip } := by
  rw [advance_eq, if_pos h]
  rfl

theorem result_advance_of_end (h : node.recordCount - index ≤ skip)
    (hlink : node.forwardLink = 0) :
    (advance load tree hops node index skip).result = .error .notFound := by
  rw [advance_eq, if_neg (Nat.not_lt.mpr h), if_pos hlink]
  rfl

theorem result_advance_of_link (h : node.recordCount - index ≤ skip)
    (hlink : node.forwardLink ≠ 0) (hself : node.forwardLink ≠ node.number) :
    (advance load tree (hops + 1) node index skip).result =
      (readSibling load node.forwardLink).result.bind fun sibling =>
        (advance load tree hops sibling 0
          (skip - (node.recordCount - index))).result := by
  rw [advance_eq, if_neg (Nat.not_lt.mpr h), if_neg hlink, if_neg hself,
    Run.result_bind]

end Results

end HfsPlus.Tree
