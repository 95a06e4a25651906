/-!
# Catalog numbers

Every file and folder has a number of its own in the catalog. The first few belong to the volume's
own files and to the root folder.
-/

namespace HfsPlus

/-- The number under which a file or folder is known in the catalog. -/
abbrev CatalogId := UInt32

namespace CatalogId

/-- The parent of the root folder. No such folder exists. -/
def rootParent : CatalogId := 1

/-- The root folder. -/
def rootFolder : CatalogId := 2

/-- The catalog itself. -/
def catalogFile : CatalogId := 4

end CatalogId

end HfsPlus
