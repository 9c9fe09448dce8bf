import ComponentCompiler.Disk.File
import ComponentCompiler.Json.Reader
import ComponentCompiler.Settings.Validation

/-!
Settings from a file, which holds one JSON object; without the file all settings are defaults.
-/

namespace ComponentCompiler.Settings

def filename : Utf16 := .ofString "zmx.json"

/-- The line and the column, both from one, of the character that is `left` characters before the
end of a text. -/
def position (s : Text) (left : Nat) : Nat × Nat :=
  let before := s.take (s.length - left)
  (before.count '\n' + 1, (before.reverse.takeWhile (· ≠ '\n')).length + 1)

def complaint (path : Utf16) (detail : Text) (hint? : Option Text) : Failure :=
  .diagnosed ⟨.settings, detail, some path, hint?⟩

def invalidJson (path : Utf16) (text : Text) (left : Nat) : Failure :=
  let (line, column) := position text left
  complaint path
    ("Invalid JSON at line ".toList ++ Text.ofNat line ++ ", column ".toList ++ Text.ofNat column)
    (some "The config file must be a single JSON object".toList)

def invalidValues (path : Utf16) (offenders : List Text) : Failure :=
  complaint path ("Invalid config value(s): ".toList ++ Text.join ", ".toList offenders)
    (some "Check the setting names and types".toList)

def ofText (path : Utf16) (text : Text) : Except Failure Settings :=
  match Json.read text with
  | .error (.before left) => .error (invalidJson path text left)
  | .error (.oversized digits) => .error (.oversized digits)
  | .ok (.object members) => (ofMembers members).mapError (invalidValues path)
  | .ok _ => .error (complaint path "Config must be a JSON object".toList none)

def load (disk : Disk) (path : Utf16) : Except Failure Settings :=
  if disk.has path then
    match disk.readText path with
    | .ok (.ok text) => ofText path text
    | .ok (.error fault) => .error (.undecodable fault)
    | .error (.refused fault) =>
      .error (complaint path ("Could not read config: ".toList ++ fault.system.reason) none)
    | .error (.unencodable fault) => .error (.unencodable fault)
    | .error .nullByte => .error .nullByte
  else .ok default

end ComponentCompiler.Settings
