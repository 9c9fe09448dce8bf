import ComponentCompiler.Disk.Lookup

/-! Listing, creating and removing directories. -/

namespace ComponentCompiler.Disk

def namesAt (disk : Disk) (location : Location) : List Name :=
  disk.entries.keys.filterMap fun
    | name :: parent => if parent = location then some name else none
    | [] => none

def list (disk : Disk) (path : Utf16) : Except Error (List Utf16) :=
  match disk.locate path with
  | .error e => .error e
  | .ok place =>
    if !disk.isDirectoryAt place then .error (.refused .notDirectory)
    else if place.lost ≠ 0 then .ok []
    else .ok ((disk.namesAt place.location).map Name.text)

def makeDirectory (disk : Disk) (path : Utf16) : Except Error Disk :=
  match disk.target path with
  | .error e => .error e
  | .ok (parent, .down name) =>
    match child parent name with
    | .error fault => .error (.refused fault)
    | .ok location =>
      if (disk.entry? location).isSome then .error (.refused .occupied)
      else .ok (disk.put location .directory)
  | .ok _ => .error (.refused .occupied)

def ensureDirectory (disk : Disk) (path : Utf16) : Disk × Option Error :=
  match disk.makeDirectory path with
  | .ok disk => (disk, none)
  | .error (.refused fault) =>
    if disk.isDirectory path then (disk, none) else (disk, some (.refused fault))
  | .error e => (disk, some e)

/-- Creates a path's directory after the missing ones above it, which are given nearest first. What
was created stays when a later one fails. -/
def ensureBelow (disk : Disk) (path : Utf16) : (above : List Utf16) → Disk × Option Error
  | [] => disk.ensureDirectory path
  | parent :: above =>
    if disk.has parent then disk.ensureDirectory path
    else
      match disk.ensureBelow parent above with
      | (disk, none) | (disk, some (.refused .occupied)) =>
        if Path.lastName? path = some Path.dot then (disk, none) else disk.ensureDirectory path
      | failed => failed

def ensureDirectories (disk : Disk) (path : Utf16) : Disk × Option Error :=
  disk.ensureBelow path (Path.ancestors path)

def erase (disk : Disk) (location : Location) : Disk where
  entries := disk.entries.filter fun p => !location.isSuffixOf p.1
  home := disk.home.without location
  nodup := disk.nodup.sublist (List.filter_sublist.map Prod.fst)

def clear (disk : Disk) (place : Place) : Disk :=
  if place.lost ≠ 0 then disk
  else
    (disk.namesAt place.location).foldl (fun disk name => disk.erase (name :: place.location)) disk

/-- Removes a file, or a directory after what is in it. A path that does not end in a name has its
directory cleared and is refused then. -/
def remove (disk : Disk) (path : Utf16) : Disk × Option Error :=
  match disk.locate path with
  | .error e => (disk, some e)
  | .ok place =>
    let cleared := if disk.isDirectoryAt place then disk.clear place else disk
    match cleared.target path with
    | .error e => (cleared, some e)
    | .ok (_, .here) => (cleared, some (.refused .invalid))
    | .ok (_, .up) => (cleared, some (.refused .notEmpty))
    | .ok (parent, .down name) => (cleared.erase (name :: parent.location), none)

def relativePath? (disk : Disk) (location : Location) (entry : Entry) : Option Utf16 :=
  let names := location.take (location.length - disk.home.location.length)
  if names = [] ∨ names ++ disk.home.location ≠ location then none
  else
    let path := Utf16.join [Path.slash] (names.reverse.map Name.text)
    some (if entry = .directory then path ++ [Path.slash] else path)

def contents (disk : Disk) : List Utf16 :=
  if disk.home.lost ≠ 0 then []
  else
    (disk.entries.filterMap fun (location, entry) => disk.relativePath? location entry).mergeSort
      Utf16.precedes

end ComponentCompiler.Disk
