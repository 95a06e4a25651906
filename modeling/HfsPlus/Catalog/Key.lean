import HfsPlus.Catalog.Id
import HfsPlus.Catalog.Name
import HfsPlus.Tree.Record

/-!
# Catalog keys

The catalog is ordered by parent first, then by folded name, so the entries of a folder stand
together and behind the folder's own thread record, whose name is empty.
-/

namespace HfsPlus

/-- Where an entry stands in the catalog. -/
structure CatalogKey where
  /-- The folder that holds the entry. -/
  parentId : CatalogId
  /-- The name of the entry. -/
  name : Name
deriving DecidableEq, Repr

namespace CatalogKey

/-- The key in front of all entries of a folder. -/
def firstChild (folder : CatalogId) : CatalogKey := ⟨folder, []⟩

/-- Whether the name is short enough to stand on a volume. -/
def Representable (key : CatalogKey) : Prop := key.name.length ≤ Name.maxLength

instance (key : CatalogKey) : Decidable key.Representable :=
  inferInstanceAs (Decidable (_ ≤ _))

/-- The parent, and the length of the name that follows. -/
def fixedPart : Format (UInt32 × UInt16) := Format.uint32.seq Format.uint16

/-- Reads the key of a catalog record. Bytes behind the name are padding. -/
def ofRecord (r : KeyedRecord) : Except Error CatalogKey := do
  let .ok ((parentId, length), rest) := fixedPart.decode r.key
    | throw (.corrupted .shortCatalogKey)
  let name := rest.take (2 * length.toNat)
  if name.length < 2 * length.toNat then
    throw (.corrupted .nameOverrun)
  return { parentId, name := BigEndian.units name }

/-- The catalog's order: by parent, then by folded name, a name before its extensions. -/
def order (a b : CatalogKey) : Ordering :=
  (compare a.parentId b.parentId).then (compare a.name.fold b.name.fold)

/-- How a record of the catalog stands to a key. -/
def orderRecord (key : CatalogKey) (r : KeyedRecord) : Except Error Ordering := do
  return (← ofRecord r).order key

end CatalogKey

end HfsPlus
