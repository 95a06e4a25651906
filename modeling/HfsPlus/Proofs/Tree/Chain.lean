import HfsPlus.Proofs.Tree.Loads
import HfsPlus.Proofs.Tree.WellFormed

/-!
# Counting on along any leaves

`advance` walks whatever the forward links give it, and on a damaged volume
that can be anything: a chain that breaks off, one that comes back to where it
was, one that leads to nodes that are no leaves. A `Chain` is a piece of such a
walk, the leaves that follow a given one, and nothing is asked of it but what
the walk itself sees: each link is there, leads elsewhere, and leads to a leaf
with records.

Along a chain the walk is arithmetic. `result_advance_chain` says what it
answers there, whatever the links behind the last leaf do: the record so many
places on in the concatenation of the leaves, if the chain is long enough for
it, and otherwise what the walk answers from the end of the last leaf, with the
hops that are left. `exists_chain_of_advance` is the way back: an answer has a
chain behind it, whose leaves are the ones that the walk loaded.
-/

namespace HfsPlus.Tree

variable {load : UInt32 → Run Node} {tree : Tree} {hops : Nat}

/-- These leaves follow `first` by the forward links. -/
inductive Chain (load : UInt32 → Run Node) : (first : Node) → (rest : List Node) → Prop where
  | nil {first : Node} : Chain load first []
  | cons {first next : Node} {rest : List Node}
      (link : first.forwardLink ≠ 0) (ne_self : first.forwardLink ≠ first.number)
      (loads : (load first.forwardLink).result = .ok next)
      (kind_eq : next.kind = .ok .leaf) (ne_empty : next.recordCount ≠ 0)
      (chain : Chain load next rest) : Chain load first (next :: rest)

theorem readSibling_eq_ok_iff {number : UInt32} {node : Node} :
    (readSibling load number).result = .ok node ↔
      (load number).result = .ok node ∧ node.kind = .ok .leaf ∧ node.recordCount ≠ 0 := by
  constructor
  · intro h
    rw [readSibling, Run.result_bind] at h
    obtain ⟨sibling, hload, h⟩ := exists_of_bind_eq_ok h
    rw [Run.result_bind, Run.result_liftM] at h
    obtain ⟨kind, hkind, h⟩ := exists_of_bind_eq_ok h
    by_cases hleaf : kind ≠ .leaf
    · rw [if_pos hleaf] at h
      cases h
    · rw [if_neg hleaf] at h
      by_cases hempty : sibling.recordCount = 0
      · rw [if_pos hempty] at h
        cases h
      · rw [if_neg hempty] at h
        cases h
        exact ⟨hload, Decidable.not_not.mp hleaf ▸ hkind, hempty⟩
  · rintro ⟨hload, hkind, hempty⟩
    rw [readSibling, Run.result_bind_of_ok hload,
      Run.result_bind_of_ok (by rw [Run.result_liftM, hkind]), if_neg (by simp), if_neg hempty]
    rfl

/-! ## Leaves of a chain -/

theorem Chain.append {first : Node} {rest more : List Node} (h : Chain load first rest)
    (hmore : Chain load (rest.getLastD first) more) : Chain load first (rest ++ more) := by
  induction h with
  | nil => exact hmore
  | cons link ne_self loads kind_eq ne_empty _ ih =>
    rw [List.getLastD_cons] at hmore
    exact .cons link ne_self loads kind_eq ne_empty (ih hmore)

/-! ## The walk along a chain -/

/-- A leaf whose records are passed over is left from its end. -/
theorem advance_of_exhausted {node : Node} {index skip : Nat}
    (hindex : index ≤ node.recordCount) (hskip : node.recordCount - index ≤ skip) :
    advance load tree hops node index skip =
      advance load tree hops node node.recordCount (index + skip - node.recordCount) := by
  have hrest : index + skip - node.recordCount = skip - (node.recordCount - index) := by
    omega
  rw [advance_eq, advance_eq, if_neg (Nat.not_lt.mpr hskip), Nat.sub_self,
    if_neg (Nat.not_lt_zero _), Nat.sub_zero, hrest]

/-- Counting on comes to the record that many places behind, in the
concatenation of the leaves; or else to the end of the last leaf, with the rest
of the count and of the hops. -/
theorem result_advance_chain {first : Node} {rest : List Node} (h : Chain load first rest) :
    ∀ {hops index skip : Nat}, rest.length ≤ hops → index ≤ first.recordCount →
    (advance load tree hops first index skip).result =
      match (records (first :: rest))[index + skip]? with
      | some hit => .ok hit
      | none =>
        (advance load tree (hops - rest.length) (rest.getLastD first)
          (rest.getLastD first).recordCount
          (index + skip - (records (first :: rest)).length)).result := by
  induction h with
  | @nil first =>
    intro hops index skip _ hindex
    rw [getElem?_records_cons]
    by_cases hskip : index + skip < first.recordCount
    · rw [result_advance_of_lt (by omega), if_pos hskip]
    · rw [advance_of_exhausted hindex (by omega), if_neg hskip, length_records_cons]
      rfl
  | @cons first next rest link ne_self loads kind_eq ne_empty chain ih =>
    intro hops index skip hhops hindex
    rw [getElem?_records_cons]
    by_cases hskip : index + skip < first.recordCount
    · rw [result_advance_of_lt (by omega), if_pos hskip]
    · obtain ⟨hops, rfl⟩ : ∃ m, hops = m + 1 := by
        rw [List.length_cons] at hhops
        exact ⟨hops - 1, by omega⟩
      rw [result_advance_of_link (by omega) link ne_self,
        readSibling_eq_ok_iff.mpr ⟨loads, kind_eq, ne_empty⟩, if_neg hskip]
      show (advance _ _ _ _ _ _).result = _
      have hrest : 0 + (skip - (first.recordCount - index)) =
          index + skip - first.recordCount := by
        omega
      rw [ih (Nat.le_of_succ_le_succ hhops) (Nat.zero_le _), hrest,
        length_records_cons first, Nat.sub_add_eq, List.length_cons, Nat.add_sub_add_right,
        List.getLastD_cons]

/-- A step that ends in a hit, or leads to one. -/
theorem here_or_next_of_advance {node : Node} {index skip : Nat} {hit : Hit}
    (h : (advance load tree hops node index skip).result = .ok hit) :
    (skip < node.recordCount - index ∧ hit = ⟨node, index + skip⟩) ∨
    (node.recordCount - index ≤ skip ∧ node.forwardLink ≠ 0 ∧
      node.forwardLink ≠ node.number ∧ ∃ m, hops = m + 1 ∧
      ∃ sibling, (readSibling load node.forwardLink).result = .ok sibling ∧
        (advance load tree m sibling 0 (skip - (node.recordCount - index))).result =
          .ok hit) := by
  rw [advance_eq] at h
  split at h
  · next hskip =>
    cases h
    exact .inl ⟨hskip, rfl⟩
  · next hskip =>
    split at h
    · cases h
    · next hlink =>
      split at h
      · cases h
      · next hself =>
        cases hops with
        | zero => cases h
        | succ m =>
          rw [Run.result_bind] at h
          obtain ⟨sibling, hsibling, h⟩ := exists_of_bind_eq_ok h
          exact .inr ⟨Nat.not_lt.mp hskip, hlink, hself, m, rfl, sibling, hsibling, h⟩

theorem exists_chain_of_lt (id : CatalogId) {node : Node} {index skip : Nat}
    (h : skip < node.recordCount - index) :
    ∃ rest, Chain load node rest ∧ rest.length ≤ hops ∧
      (records (node :: rest))[index + skip]? = some ⟨node, index + skip⟩ ∧
      (advance (recording load id) tree hops node index skip).nodes =
        rest.map Node.number := by
  refine ⟨[], .nil, Nat.zero_le _, ?_, nodes_advance_of_lt id h⟩
  rw [getElem?_records_cons, if_pos (by omega)]

/-- A record that counting on comes to lies on a chain, and the leaves of the
chain are the ones that were asked for. -/
theorem exists_chain_of_advance (id : CatalogId)
    (hnumber : ∀ {number node}, (load number).result = .ok node → node.number = number)
    {node : Node} {index skip : Nat} {hit : Hit} (hindex : index ≤ node.recordCount)
    (h : (advance load tree hops node index skip).result = .ok hit) :
    ∃ rest, Chain load node rest ∧ rest.length ≤ hops ∧
      (records (node :: rest))[index + skip]? = some hit ∧
      (advance (recording load id) tree hops node index skip).nodes =
        rest.map Node.number := by
  induction hops generalizing node index skip with
  | zero =>
    rcases here_or_next_of_advance h with ⟨hskip, rfl⟩ | ⟨-, -, -, m, hm, -⟩
    · exact exists_chain_of_lt id hskip
    · cases hm
  | succ hops ih =>
    rcases here_or_next_of_advance h with
      ⟨hskip, rfl⟩ | ⟨hskip, hlink, hself, m, hm, sibling, hsibling, h⟩
    · exact exists_chain_of_lt id hskip
    · cases hm
      obtain ⟨hload, hkind, hempty⟩ := readSibling_eq_ok_iff.mp hsibling
      obtain ⟨rest, hchain, hlength, hhit, hnodes⟩ := ih (Nat.zero_le _) h
      refine ⟨sibling :: rest, .cons hlink hself hload hkind hempty hchain,
        Nat.succ_le_succ hlength, ?_, ?_⟩
      · rw [getElem?_records_cons, if_neg (by omega), ← hhit]
        congr 1
        omega
      · rw [nodes_advance_of_link id hskip hlink hself hsibling, hnodes, List.map_cons,
          hnumber hload]

end HfsPlus.Tree
