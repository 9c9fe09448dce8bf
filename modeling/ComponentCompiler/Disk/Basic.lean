import ComponentCompiler.Diagnostic
import ComponentCompiler.Disk.Path
import ComponentCompiler.Keyed

/-!
Disks of directories and files without links, and the faults of operations on them. No access is
refused for want of a permission, and no write for want of room.
-/

namespace ComponentCompiler

/-- The names from an entry up to the root, its own name first. -/
abbrev Location := List Name

inductive Entry where
  | directory
  | file (bytes : List UInt8)
  deriving DecidableEq, Repr

/-- Where a path has led. A working directory can be removed and is left only upwards then, so a
place may be so many lost directories below a location. -/
structure Place where
  location : Location
  lost : Nat := 0
  deriving DecidableEq, Repr

namespace Place

def above : Place → Place
  | ⟨location, 0⟩ => ⟨location.tail, 0⟩
  | ⟨location, lost + 1⟩ => ⟨location, lost⟩

def without (place : Place) (gone : Location) : Place :=
  if gone.isSuffixOf place.location then
    ⟨gone.tail, place.location.length - gone.tail.length + place.lost⟩
  else place

end Place

structure Disk where
  entries : Keyed Location Entry
  home : Place
  nodup : entries.keys.Nodup
  deriving DecidableEq, Repr

namespace Disk

inductive Fault where
  | missing
  | occupied
  | notDirectory
  | isDirectory
  | invalid
  | nameTooLong
  | notEmpty
  deriving DecidableEq, Repr

/-- A path without bytes, or with a null character, does not even reach the system. -/
inductive Error where
  | refused (fault : Fault)
  | unencodable (fault : Utf16.Fault)
  | nullByte
  deriving DecidableEq, Repr

def Fault.system : Fault → SystemError
  | .missing => .ofCode 2 "No such file or directory".toList
  | .occupied => .ofCode 17 "File exists".toList
  | .notDirectory => .ofCode 20 "Not a directory".toList
  | .isDirectory => .ofCode 21 "Is a directory".toList
  | .invalid => .ofCode 22 "Invalid argument".toList
  | .nameTooLong => .ofCode 36 "File name too long".toList
  | .notEmpty => .ofCode 39 "Directory not empty".toList

def Error.failure (action : Text) (path : Utf16) : Error → Failure
  | .refused fault => .diagnosed (.ofSystem action path fault.system)
  | .unencodable fault => .unencodable fault
  | .nullByte => .nullByte

def entry? (disk : Disk) : Location → Option Entry
  | [] => some .directory
  | location => disk.entries.find? location

def entryAt? (disk : Disk) (place : Place) : Option Entry :=
  if place.lost = 0 then disk.entry? place.location else some .directory

def isDirectoryAt (disk : Disk) (place : Place) : Bool :=
  disk.entryAt? place = some .directory

def put (disk : Disk) (location : Location) (entry : Entry) : Disk where
  entries := disk.entries.put location entry
  home := disk.home
  nodup := Keyed.nodup_keys_put disk.nodup

def ofHome : (home : Location) → Disk
  | [] => ⟨[], ⟨[], 0⟩, .nil⟩
  | name :: above =>
    { (ofHome above).put (name :: above) .directory with home := ⟨name :: above, 0⟩ }

end Disk

end ComponentCompiler
