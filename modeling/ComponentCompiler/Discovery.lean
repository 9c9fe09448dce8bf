import ComponentCompiler.Disk.Directory
import ComponentCompiler.Disk.File

/-!
Which entries of a directory are source units, and in what order they are compiled: the entry unit
first, the others in order of code points.
-/

namespace ComponentCompiler.Discovery

def componentName (suffix filename : Utf16) : Utf16 :=
  if Utf16.endsIn suffix filename then filename.take (filename.length - suffix.length)
  else filename

def order (suffix entryName : Utf16) (names : List Utf16) : List Utf16 :=
  let sources := names.filter (Utf16.endsIn suffix)
  sources.filter (componentName suffix · = entryName) ++
    (sources.filter (componentName suffix · ≠ entryName)).mergeSort Utf16.precedes

def sources (disk : Disk) (directory suffix entryName : Utf16) : Except Failure (List Utf16) :=
  match disk.list directory with
  | .ok names => .ok (order suffix entryName names)
  | .error e => .error (e.failure "list source directory".toList directory)

def readSource (disk : Disk) (path : Utf16) : Except Failure Text :=
  match disk.readText path with
  | .ok (.ok text) => .ok text
  | .ok (.error fault) => .error (.undecodable fault)
  | .error e => .error (e.failure "read source unit".toList path)

end ComponentCompiler.Discovery
