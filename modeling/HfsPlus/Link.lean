import HfsPlus.Catalog.FinderInfo
import HfsPlus.Text.Ascii

/-!
# Links

A link is a file with a particular pair of type and creator codes. A symbolic link's data fork
holds its target. A hard link names its target by number: the file that all links to it share lies
in a folder of the volume's own, whose name begins with four zeros so that it sorts behind all
others and nobody types it.
-/

namespace HfsPlus

/-- The two kinds of link. -/
inductive LinkKind where
  /-- One more name of a file. -/
  | hard
  /-- A path to some other place. -/
  | symbolic
deriving DecidableEq, Repr

namespace LinkKind

/-- The kind's name. -/
def name : LinkKind → String
  | .hard => "Hard"
  | .symbolic => "Symbolic"

/-- The type code of a link: `hlnk` or `slnk`. -/
def fileType : LinkKind → FourCharCode
  | .hard => 0x686C6E6B
  | .symbolic => 0x736C6E6B

/-- The creator code of a link: `hfs+` or `rhap`. -/
def fileCreator : LinkKind → FourCharCode
  | .hard => 0x6866732B
  | .symbolic => 0x72686170

/-- The kind of link that a pair of codes marks, if it marks one. -/
def ofCodes? (fileType fileCreator : FourCharCode) : Option LinkKind :=
  [hard, symbolic].find? fun k => k.fileType = fileType && k.fileCreator = fileCreator

end LinkKind

/-- The path of the files that hard links stand for, up to the number. -/
def inodePath : Bytes := Text.Ascii.bytes "/\x00\x00\x00\x00HFS+ Private Data/iNode"

/-- The path of the file that a hard link with this inode number stands for. -/
def hardLinkTarget (inode : UInt32) : Bytes :=
  inodePath ++ Text.Ascii.bytes (toString inode.toNat)

/-- The longest target that a symbolic link may have. -/
def maxLinkTarget : Nat := 4096

end HfsPlus
