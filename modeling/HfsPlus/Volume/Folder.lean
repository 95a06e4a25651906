import HfsPlus.Catalog.Key
import HfsPlus.Tree.Search
import HfsPlus.Volume.Basic

/-!
# The entries of a folder

The entries of a folder stand together in the catalog, behind the folder's thread record. One of
them is found by its name, with a search for its key; or all of them are gone through in order, by
a search for the thread record that goes on over as many records as were seen before. So a place in
a folder is a number, and nothing has to be kept between two steps.
-/

namespace HfsPlus

namespace Volume

/-- The entry that a record of the catalog gives. -/
def entryOf (hit : Hit) : Run Entry := do
  let r ← hit.keyedRecord
  let key ← CatalogKey.ofRecord r
  let record ← CatalogRecord.parse r.data
  if let .unknown code := record then
    Run.note (.unknownRecord code hit.node.number)
  return Entry.ofRecord key.parentId key.name record

/-- Finds an entry of a folder by its name, whose case does not matter. -/
def lookup (v : Volume) (folder : Entry) (name : Name) : Run Entry := do
  let key : CatalogKey := { parentId := folder.id, name }
  if key.Representable then
    let hit ← v.catalog.search v.device key.orderRecord 0
    let entry ← entryOf hit
    Run.note (.lookedUp folder.id entry)
    return entry
  else
    Run.fail .notFound

/-- The entry at a position of a folder. Position zero is the folder's own thread record, which
gives an entry of unknown kind. -/
def entryAt (v : Volume) (folder : Entry) (position : Nat) : Run Entry := do
  let key := CatalogKey.firstChild folder.id
  let hit ← v.catalog.search v.device key.orderRecord position
  let found ← CatalogKey.ofRecord (← hit.keyedRecord)
  if found.parentId = folder.id then
    entryOf hit
  else do
    Run.note (.endOfFolder folder.id position)
    Run.fail .notFound

end Volume

/-- A place in the enumeration of a folder. -/
structure Cursor where
  /-- The folder. -/
  folder : Entry
  /-- The position of the next entry. -/
  position : UInt64 := 0
deriving DecidableEq, Repr

namespace Cursor

/-- The next entry, and the place behind it. The cursor stays where it is if there is none, or if
it cannot be read. -/
def next (v : Volume) (c : Cursor) : Run Entry × Cursor :=
  let found := v.entryAt c.folder c.position.toNat
  match found.result with
  | .ok _ => (found, { c with position := c.position + 1 })
  | .error _ => (found, c)

end Cursor

/-- Why an enumeration stopped. -/
inductive Ending where
  /-- The folder has no further entry. -/
  | complete
  /-- The next entry cannot be read. -/
  | failed (error : Error)
  /-- As many entries as were wanted have been seen. -/
  | limited
deriving DecidableEq, Repr

/-- The entries seen by an enumeration, in order. -/
structure Listing where
  /-- The entries. -/
  entries : List Entry
  /-- Why there are no more of them. -/
  ending : Ending
  /-- The place behind the last of them. -/
  cursor : Cursor
deriving DecidableEq, Repr

namespace Cursor

/-- Enumerates at most `limit` entries. -/
def list (v : Volume) : (limit : Nat) → Cursor → Run Listing
  | 0, c => return { entries := [], ending := .limited, cursor := c }
  | limit + 1, c => do
    let (found, behind) := c.next v
    match ← found.attempt with
    | .ok entry =>
      (fun rest => { rest with entries := entry :: rest.entries }) <$> behind.list v limit
    | .error .notFound => return { entries := [], ending := .complete, cursor := c }
    | .error e => return { entries := [], ending := .failed e, cursor := c }

end Cursor

namespace Volume

/-- A number of entries that no folder reaches: a search goes on over fewer records than so many
nodes can hold. -/
def maxEntries (v : Volume) : Nat := 65535 * max v.catalog.totalNodes.toNat 1

/-- All entries of a folder. -/
def entries (v : Volume) (folder : Entry) : Run (List Entry) := do
  let listing ← Cursor.list v (v.maxEntries + 1) { folder }
  match listing.ending with
  | .failed e => Run.fail e
  | .complete | .limited => return listing.entries

end Volume

end HfsPlus
