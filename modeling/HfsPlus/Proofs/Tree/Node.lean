import HfsPlus.Proofs.Run
import HfsPlus.Tree.Basic

/-!
# What a node load answers

A node load is a read of the tree's fork and then a parse, and the two answer
in different words. The read fails the way reads fail. The parse names damage
and nothing else, and the node it gives carries the number it was asked for.
-/

namespace HfsPlus

variable {number : UInt32} {data : Bytes} {node : Node}

namespace KeyedRecord

theorem onlyDamage_parse (record : Bytes) : OnlyDamage (parse record) := by
  unfold parse
  split
  · simp only []
    split
    · exact onlyDamage_corrupted _
    · exact onlyDamage_ok _
  · exact onlyDamage_corrupted _

theorem onlyDamage_child (r : KeyedRecord) : OnlyDamage r.child := by
  unfold child
  split
  · exact onlyDamage_ok _
  · exact onlyDamage_corrupted _

end KeyedRecord

namespace Node

theorem number_of_parse (h : parse number data = .ok node) :
    node.number = number := by
  obtain ⟨descriptor, -, h⟩ := exists_of_bind_eq_ok h
  obtain ⟨first, -, h⟩ := exists_of_bind_eq_ok h
  by_cases hfirst : first = NodeDescriptor.size
  · simp only [hfirst] at h
    cases h
    rfl
  · simp only [hfirst, ne_eq] at h
    cases h

theorem onlyDamage_kind (node : Node) : OnlyDamage node.kind := by
  unfold kind
  split
  · exact onlyDamage_ok _
  · exact onlyDamage_corrupted _

theorem onlyDamage_offset (node : Node) (index : Nat) :
    OnlyDamage (node.offset index) := by
  unfold offset
  simp only []
  split
  · exact onlyDamage_corrupted _
  · split
    · exact onlyDamage_ok _
    · exact onlyDamage_corrupted _

theorem onlyDamage_record (node : Node) (index : Nat) :
    OnlyDamage (node.record index) := by
  unfold record
  split
  · exact onlyDamage_corrupted _
  · refine (node.onlyDamage_offset index).bind fun start => ?_
    refine (node.onlyDamage_offset (index + 1)).bind fun stop => ?_
    split
    · exact onlyDamage_corrupted _
    · exact onlyDamage_ok _

theorem onlyDamage_keyedRecord (node : Node) (index : Nat) :
    OnlyDamage (node.keyedRecord index) :=
  (node.onlyDamage_record index).bind KeyedRecord.onlyDamage_parse

theorem onlyDamage_parse (number : UInt32) (data : Bytes) :
    OnlyDamage (parse number data) := by
  refine OnlyDamage.bind ?_ fun descriptor => ?_
  · rw [Format.read]
    split
    · exact onlyDamage_ok _
    · exact onlyDamage_corrupted _
  · refine (onlyDamage_offset _ 0).bind fun first => ?_
    split
    · exact onlyDamage_corrupted _
    · exact onlyDamage_ok _

end Node

namespace Tree

variable {dev : Device} {tree : Tree}

theorem result_readNode (dev : Device) (tree : Tree) (number : UInt32) :
    (tree.readNode dev number).result =
      (tree.fork.readAt dev (number.toNat * tree.nodeSize.toNat)
        tree.nodeSize.toNat).result.bind (Node.parse number) := by
  simp only [readNode, Run.result_bind, Run.result_note, Run.result_liftM]
  rfl

/-- A loaded node knows the number it was loaded under. -/
theorem number_of_readNode (h : (tree.readNode dev number).result = .ok node) :
    node.number = number := by
  rw [result_readNode] at h
  obtain ⟨bytes, -, h⟩ := exists_of_bind_eq_ok h
  exact Node.number_of_parse h

end Tree

end HfsPlus
