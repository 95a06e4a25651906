import HfsPlus.Format.Basic

/-!
# What the desktop keeps in the catalog

Files and folders carry two fixed blocks of presentation data. Only the type and creator codes of
a file matter for reading: two pairs of them mark links.
-/

namespace HfsPlus

/-- A place on the screen. -/
structure Point where
  /-- The vertical coordinate. -/
  v : Int16
  /-- The horizontal coordinate. -/
  h : Int16
deriving DecidableEq, Repr

open Format in
/-- Vertical before horizontal. -/
def Point.format : Format Point :=
  (int16.seq int16).iso (fun (v, h) => { v, h }) (fun p => (p.v, p.h))

/-- A rectangle on the screen. -/
structure Rect where
  /-- The upper edge. -/
  top : Int16
  /-- The left edge. -/
  left : Int16
  /-- The lower edge. -/
  bottom : Int16
  /-- The right edge. -/
  right : Int16
deriving DecidableEq, Repr

open Format in
/-- The four edges. -/
def Rect.format : Format Rect :=
  (int16.seq <| int16.seq <| int16.seq int16).iso
    (fun (top, left, bottom, right) => { top, left, bottom, right })
    (fun r => (r.top, r.left, r.bottom, r.right))

/-- A four-letter code, the first letter in the high byte. -/
abbrev FourCharCode := UInt32

/-- How a file is shown. -/
structure FileInfo where
  /-- What the file is. -/
  fileType : FourCharCode
  /-- The program that the file belongs to. -/
  fileCreator : FourCharCode
  /-- Flags of the desktop. -/
  finderFlags : UInt16
  /-- Where the icon stands. -/
  location : Point
  /-- Not used. -/
  reserved : UInt16
deriving DecidableEq, Repr

open Format in
/-- The fields in their order in the record. -/
def FileInfo.format : Format FileInfo :=
  (uint32.seq <| uint32.seq <| uint16.seq <| Point.format.seq uint16).iso
    (fun (fileType, fileCreator, finderFlags, location, reserved) =>
      { fileType, fileCreator, finderFlags, location, reserved })
    (fun i => (i.fileType, i.fileCreator, i.finderFlags, i.location, i.reserved))

/-- More about how a file is shown. -/
structure ExtendedFileInfo where
  /-- Not used. -/
  reserved1 : Vector Int16 4
  /-- More flags of the desktop. -/
  extendedFinderFlags : UInt16
  /-- Not used. -/
  reserved2 : Int16
  /-- The folder that the file returns to when it is put away. -/
  putAwayFolderId : Int32
deriving DecidableEq, Repr

open Format in
/-- The fields in their order in the record. -/
def ExtendedFileInfo.format : Format ExtendedFileInfo :=
  ((int16.array 4).seq <| uint16.seq <| int16.seq int32).iso
    (fun (reserved1, extendedFinderFlags, reserved2, putAwayFolderId) =>
      { reserved1, extendedFinderFlags, reserved2, putAwayFolderId })
    (fun i => (i.reserved1, i.extendedFinderFlags, i.reserved2, i.putAwayFolderId))

/-- How a folder is shown. -/
structure FolderInfo where
  /-- Where the folder's window opens. -/
  windowBounds : Rect
  /-- Flags of the desktop. -/
  finderFlags : UInt16
  /-- Where the icon stands. -/
  location : Point
  /-- Not used. -/
  reserved : UInt16
deriving DecidableEq, Repr

open Format in
/-- The fields in their order in the record. -/
def FolderInfo.format : Format FolderInfo :=
  (Rect.format.seq <| uint16.seq <| Point.format.seq uint16).iso
    (fun (windowBounds, finderFlags, location, reserved) =>
      { windowBounds, finderFlags, location, reserved })
    (fun i => (i.windowBounds, i.finderFlags, i.location, i.reserved))

/-- More about how a folder is shown. -/
structure ExtendedFolderInfo where
  /-- How far the window is scrolled. -/
  scrollPosition : Point
  /-- Not used. -/
  reserved1 : Int32
  /-- More flags of the desktop. -/
  extendedFinderFlags : UInt16
  /-- Not used. -/
  reserved2 : Int16
  /-- The folder that the folder returns to when it is put away. -/
  putAwayFolderId : Int32
deriving DecidableEq, Repr

open Format in
/-- The fields in their order in the record. -/
def ExtendedFolderInfo.format : Format ExtendedFolderInfo :=
  (Point.format.seq <| int32.seq <| uint16.seq <| int16.seq int32).iso
    (fun (scrollPosition, reserved1, extendedFinderFlags, reserved2, putAwayFolderId) =>
      { scrollPosition, reserved1, extendedFinderFlags, reserved2, putAwayFolderId })
    (fun i => (i.scrollPosition, i.reserved1, i.extendedFinderFlags, i.reserved2,
      i.putAwayFolderId))

end HfsPlus
