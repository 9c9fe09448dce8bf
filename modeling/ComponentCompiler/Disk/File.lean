import ComponentCompiler.Disk.Lookup

/-! Reading and writing files. -/

namespace ComponentCompiler.Disk

def read (disk : Disk) (path : Utf16) : Except Error (List UInt8) :=
  match disk.locate path with
  | .error e => .error e
  | .ok place =>
    match disk.entryAt? place with
    | some (.file bytes) => .ok bytes
    | some .directory => .error (.refused .isDirectory)
    | none => .error (.refused .missing)

def write (disk : Disk) (path : Utf16) (bytes : List UInt8) : Except Error Disk :=
  match disk.target path with
  | .error e => .error e
  | .ok (parent, .down name) =>
    if Path.endsInSlash path then .error (.refused .isDirectory)
    else
      match child parent name with
      | .error fault => .error (.refused fault)
      | .ok location =>
        if disk.entry? location = some .directory then .error (.refused .isDirectory)
        else .ok (disk.put location (.file bytes))
  | .ok _ => .error (.refused .isDirectory)

def readText (disk : Disk) (path : Utf16) : Except Error (Except Text.Utf8.Fault Text) :=
  (disk.read path).map fun bytes => (Text.Utf8.decode bytes).map Text.unifyNewlines

/-- Puts a text into a file. One that has no bytes leaves the file empty. -/
def writeText (disk : Disk) (path text : Utf16) : Disk × Option Error :=
  let (bytes, e?) :=
    match text.encode with
    | .ok bytes => (bytes, none)
    | .error fault => ([], some (.unencodable fault))
  match disk.write path bytes with
  | .ok disk => (disk, e?)
  | .error e => (disk, some e)

end ComponentCompiler.Disk
