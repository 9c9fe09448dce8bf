import ComponentCompiler.Disk.Basic

/-! Following a path step by step, to the entry at its end or to where it would create one. -/

namespace ComponentCompiler.Disk

def maxName : Nat := 255

def maxPath : Nat := 4095

def child (here : Place) (name : Name) : Except Fault Location :=
  if here.lost ≠ 0 then .error .missing
  else if maxName < name.bytes.length then .error .nameTooLong
  else .ok (name :: here.location)

def step (disk : Disk) (here : Place) (s : Path.Step) : Except Fault Place :=
  if !disk.isDirectoryAt here then .error .notDirectory
  else
    match s with
    | .here => .ok here
    | .up => .ok here.above
    | .down name =>
      match child here name with
      | .error fault => .error fault
      | .ok location =>
        if (disk.entry? location).isNone then .error .missing else .ok ⟨location, 0⟩

def walk (disk : Disk) : Place → List Path.Step → Except Fault Place
  | here, [] => .ok here
  | here, s :: rest =>
    match disk.step here s with
    | .ok there => disk.walk there rest
    | .error fault => .error fault

def pathBytes (path : Utf16) : Except Error (List UInt8) :=
  match path.encodePath with
  | .error fault => .error (.unencodable fault)
  | .ok bytes =>
    if bytes.contains 0 then .error .nullByte
    else if bytes = [] then .error (.refused .missing)
    else if maxPath < bytes.length then .error (.refused .nameTooLong)
    else .ok bytes

def start (disk : Disk) (path : Utf16) : Place :=
  if Path.isAbsolute path then ⟨[], 0⟩ else disk.home

def locate (disk : Disk) (path : Utf16) : Except Error Place :=
  match pathBytes path with
  | .error e => .error e
  | .ok bytes =>
    let steps := Path.steps bytes ++ (if Path.endsInSlash path then [.here] else [])
    (disk.walk (disk.start path) steps).mapError .refused

def has (disk : Disk) (path : Utf16) : Bool :=
  (disk.locate path).isOk

def isDirectory (disk : Disk) (path : Utf16) : Bool :=
  match disk.locate path with
  | .ok place => disk.isDirectoryAt place
  | .error _ => false

/-- Where a path would create an entry: the directory and the last step, which stays there for the
path of the root. -/
def target (disk : Disk) (path : Utf16) : Except Error (Place × Path.Step) :=
  match pathBytes path with
  | .error e => .error e
  | .ok bytes =>
    let steps := Path.steps bytes
    match disk.walk (disk.start path) steps.dropLast with
    | .error fault => .error (.refused fault)
    | .ok parent =>
      if disk.isDirectoryAt parent then .ok (parent, steps.getLast?.getD .here)
      else .error (.refused .notDirectory)

end ComponentCompiler.Disk
