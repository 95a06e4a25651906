import HfsPlus.Catalog.Key
import HfsPlus.Proofs.Tree.KeyOrder

/-!
# The order of the catalog

The catalog's comparison is a total preorder, first by parent and then by
folded name, so the catalog is searched by a `KeyOrder` like any other tree.
Two keys are equal in it if they have the same parent and names that fold
alike. Since no name is below the empty one, the thread record of a folder has
the least key with that parent: whatever stands in front of it belongs to a
folder of a smaller number.
-/

namespace HfsPlus.CatalogKey

variable {a b key : CatalogKey} {id : CatalogId}

theorem order_eq_compareLex :
    order = compareLex (compareOn parentId) (compareOn fun key => key.name.fold) :=
  rfl

instance : Std.TransCmp order := by
  rw [order_eq_compareLex]
  infer_instance

/-- The order of catalog records by their keys. -/
def keyOrder : KeyOrder CatalogKey where
  read := ofRecord
  cmp := order
  trans := inferInstance

theorem keyOrder_order (key : CatalogKey) : keyOrder.order key = key.orderRecord :=
  rfl

theorem order_eq_eq :
    a.order b = .eq ↔ a.parentId = b.parentId ∧ a.name.fold = b.name.fold := by
  simp [order, Ordering.then_eq_eq]

theorem parentId_le_of_lt (h : a.order b = .lt) : a.parentId ≤ b.parentId := by
  rw [order, Ordering.then_eq_lt, Std.compare_eq_lt,
    Std.compare_eq_iff_eq] at h
  rcases h with h | ⟨h, -⟩
  · exact UInt32.le_of_lt h
  · exact UInt32.le_of_eq h

theorem not_compare_nil_lt (name : Name) : compare name [] ≠ .lt := by
  cases name with
  | nil => simp
  | cons u rest => simp [List.compare_cons_nil]

/-- What is in front of a folder's thread record belongs to another folder. -/
theorem parentId_ne_of_lt_firstChild (h : key.order (firstChild id) = .lt) :
    key.parentId ≠ id := by
  intro heq
  rw [order, Ordering.then_eq_lt] at h
  rcases h with h | ⟨-, h⟩
  · have hself : compare id id = .eq := Std.ReflOrd.compare_self
    rw [heq, show (firstChild id).parentId = id from rfl, hself] at h
    cases h
  · exact not_compare_nil_lt _ h

end HfsPlus.CatalogKey
