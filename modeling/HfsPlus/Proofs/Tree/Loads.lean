import HfsPlus.Proofs.Tree.InStep

/-!
# Which nodes a search loads

A search takes its loader as a parameter, so the nodes it asks for can be had
by running the same search with a loader that puts each number on record
before it loads the node, and keeps quiet otherwise. `Tree.loads` is that list,
the last number included if its load fails.

Two facts connect it with the search itself. Recording changes no result
(`result_searchWith_congr`). And a load that fails is not passed over: its
error is the error of the search (`result_search_of_mem_loads`). The second is
one statement about runs, `Surfaces`, that sequencing preserves, carried down
the levels and along the leaves by the step equations.
-/

namespace HfsPlus

/-- The node that a notice puts on record. -/
def Event.node? : Event → Option UInt32
  | .noted (.nodeLoaded _ number) => some number
  | _ => none

namespace Run

variable {α β : Type}

/-- The nodes on record, in order. -/
def nodes (r : Run α) : List UInt32 := r.events.filterMap Event.node?

theorem nodes_bind_of_ok {r : Run α} {a : α} (h : r.result = .ok a) (next : α → Run β) :
    (r >>= next).nodes = r.nodes ++ (next a).nodes := by
  rw [nodes, bind_of_ok h, List.filterMap_append, nodes, nodes]

theorem nodes_bind_of_error {r : Run α} {e : Error} (h : r.result = .error e)
    (next : α → Run β) : (r >>= next).nodes = r.nodes := by
  rw [nodes, bind_of_error h, nodes]

theorem mem_nodes_bind {r : Run α} {next : α → Run β} {number : UInt32} :
    number ∈ (r >>= next).nodes ↔
      number ∈ r.nodes ∨ ∃ a, r.result = .ok a ∧ number ∈ (next a).nodes := by
  cases hr : r.result with
  | error e =>
    rw [nodes_bind_of_error hr]
    exact (or_iff_left (by simp)).symm
  | ok a =>
    rw [nodes_bind_of_ok hr, List.mem_append]
    simp

end Run

namespace Tree

/-- Puts each node on record before it is loaded, whatever comes of it. -/
def recording (load : UInt32 → Run Node) (id : CatalogId) (number : UInt32) :
    Run Node := do
  Run.note (.nodeLoaded id number)
  Run.ofExcept (load number).result

/-- The nodes that a search asks for, in order. -/
def loads (dev : Device) (tree : Tree) (order : KeyedRecord → Except Error Ordering)
    (skip : Nat) : List UInt32 :=
  (searchWith (recording (tree.readNode dev) tree.id) tree order skip).nodes

variable {load other : UInt32 → Run Node} {tree : Tree}
  {order : KeyedRecord → Except Error Ordering}

theorem result_recording (load : UInt32 → Run Node) (id : CatalogId)
    (number : UInt32) : (recording load id number).result = (load number).result := by
  rw [recording, Run.result_bind_of_ok (Run.result_note _)]
  rfl

theorem nodes_recording (load : UInt32 → Run Node) (id : CatalogId)
    (number : UInt32) : (recording load id number).nodes = [number] := by
  rw [Run.nodes, recording, Run.bind_of_ok (Run.result_note _)]
  rfl

/-! ## Only the results of the loads matter -/

section Congr

variable (h : ∀ n, (load n).result = (other n).result)
include h

theorem result_descend_congr (id : CatalogId) {levels : Nat} {number : UInt32} :
    (descend load order id levels number).result =
      (descend other order id levels number).result := by
  have hsteps : Run.InStep load other Eq (fun _ => True) (HitsAlike Eq)
      (descend load order id levels number) (descend other order id levels number) :=
    inStep_descend id (fun hsame _ => hsame ▸ rfl) (fun _ => trivial) fun _ _ _ _ => trivial
  exact ((hsteps.endsAlike fun n => h n ▸ .refl _).mono fun _ _ _ => HitsAlike.eq).eq

theorem result_readSibling_congr (next : UInt32) :
    (readSibling load next).result = (readSibling other next).result :=
  Run.InStep.result_eq (@inStep_readSibling load other (fun _ => True) (fun _ => trivial) next) h

theorem result_searchWith_congr (skip : Nat) :
    (searchWith load tree order skip).result =
      (searchWith other tree order skip).result :=
  (inStep_any load other tree order skip).result_eq h

end Congr

/-! ## What one step along the leaves puts on record -/

theorem nodes_readSibling (load : UInt32 → Run Node) (id : CatalogId) (next : UInt32) :
    (readSibling (recording load id) next).nodes = [next] := by
  have hload := nodes_recording load id next
  cases hr : (recording load id next).result with
  | error e => rw [readSibling, Run.nodes_bind_of_error hr, hload]
  | ok sibling =>
    rw [readSibling, Run.nodes_bind_of_ok hr, hload]
    cases hkind : sibling.kind with
    | error e => rfl
    | ok kind =>
      rw [Run.nodes_bind_of_ok (Run.result_liftM _)]
      split
      · rfl
      · split <;> rfl

section Advance

variable {hops : Nat} {node : Node} {index skip : Nat}

theorem nodes_advance_of_lt (id : CatalogId) (h : skip < node.recordCount - index) :
    (advance (recording load id) tree hops node index skip).nodes = [] := by
  rw [advance_eq, if_pos h]
  rfl

theorem nodes_advance_of_link (id : CatalogId) (h : node.recordCount - index ≤ skip)
    (hlink : node.forwardLink ≠ 0) (hself : node.forwardLink ≠ node.number)
    {sibling : Node} (hsibling : (readSibling load node.forwardLink).result = .ok sibling) :
    (advance (recording load id) tree (hops + 1) node index skip).nodes =
      node.forwardLink :: (advance (recording load id) tree hops sibling 0
        (skip - (node.recordCount - index))).nodes := by
  rw [← result_readSibling_congr (result_recording load id)] at hsibling
  rw [advance_eq, if_neg (Nat.not_lt.mpr h), if_neg hlink, if_neg hself,
    Run.nodes_bind_of_ok hsibling, nodes_readSibling]
  rfl

end Advance

/-! ## A load that fails is not passed over -/

section Surfaces

variable {α β : Type}

/-- If a load on record failed, the run failed with the same error. -/
def Surfaces (load : UInt32 → Run Node) (r : Run α) : Prop :=
  ∀ number ∈ r.nodes, ∀ e, (load number).result = .error e → r.result = .error e

theorem Surfaces.of_nodes_eq_nil {r : Run α} (h : r.nodes = []) : Surfaces load r := by
  intro number hmem
  rw [h] at hmem
  cases hmem

theorem Surfaces.bind {r : Run α} {next : α → Run β} (h : Surfaces load r)
    (hnext : ∀ a, r.result = .ok a → Surfaces load (next a)) : Surfaces load (r >>= next) := by
  intro number hmem e he
  rcases Run.mem_nodes_bind.mp hmem with hmem | ⟨a, ha, hmem⟩
  · exact Run.result_bind_of_error (h number hmem e he) next
  · rw [Run.result_bind_of_ok ha]
    exact hnext a ha number hmem e he

theorem surfaces_recording (load : UInt32 → Run Node) (id : CatalogId)
    (number : UInt32) : Surfaces load (recording load id number) := by
  intro n hmem e he
  rw [nodes_recording, List.mem_singleton] at hmem
  rw [result_recording, ← hmem, he]

theorem surfaces_of_loads {E : Error → Prop} {id : CatalogId} {r : Run α}
    (h : Run.Loads (recording load id) E r) : Surfaces load r := by
  induction h with
  | ofExcept own => exact .of_nodes_eq_nil rfl
  | descending id child => exact .of_nodes_eq_nil rfl
  | load number => exact surfaces_recording load id number
  | bind first behind ih ihbehind => exact ih.bind ihbehind

end Surfaces

/-- If a node that a search asks for cannot be loaded, its error is the error
of the search. -/
theorem result_search_of_mem_loads {dev : Device} {skip : Nat} {number : UInt32}
    (hmem : number ∈ tree.loads dev order skip) {e : Error}
    (he : (tree.readNode dev number).result = .error e) :
    (tree.search dev order skip).result = .error e := by
  rw [search, ← result_searchWith_congr (result_recording (tree.readNode dev) tree.id)]
  exact surfaces_of_loads (loads_any _ tree order skip) number hmem e he

end Tree

end HfsPlus
