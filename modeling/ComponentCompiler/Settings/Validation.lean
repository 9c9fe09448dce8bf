import ComponentCompiler.Json.Token
import ComponentCompiler.Settings.Basic

/-!
Settings from the members of an object. Every key must be a text, and every member a known setting
with a value of its kind; what is not given keeps its default.
-/

namespace ComponentCompiler.Settings

def textOf? : Json → Option Utf16
  | .string s => some s
  | _ => none

def truthWords : List Text :=
  ["1", "on", "t", "true", "y", "yes"].map String.toList

def falsehoodWords : List Text :=
  ["0", "off", "f", "false", "n", "no"].map String.toList

def boolOfInt? (n : Int) : Option Bool :=
  if n = 0 then some false else if n = 1 then some true else none

def boolOfText? (s : Text) : Option Bool :=
  let word := s.map Char.toLower
  if word ∈ falsehoodWords then some false else if word ∈ truthWords then some true else none

def boolOf? : Json → Option Bool
  | .bool b => some b
  | .int n => boolOfInt? n
  | .real x => x.toInt?.bind boolOfInt?
  | .string s => s.text?.bind boolOfText?
  | _ => none

def offends (members : Keyed Text Json) (field : Field) : Bool :=
  match members.find? field.key with
  | some v => (textOf? v).isNone
  | none => false

def verboseOffends (members : Keyed Text Json) : Bool :=
  match members.find? verboseKey with
  | some v => (boolOf? v).isNone
  | none => false

def offenders (members : Keyed Text Json) : List Text :=
  (Field.all.filter (offends members)).map Field.key ++
    (if verboseOffends members then [verboseKey] else []) ++
    members.keys.filter (· ∉ keys)

def overriding (members : Keyed Text Json) : Settings :=
  ofFields
    (fun field => ((members.find? field.key).bind textOf?).getD (default.get field))
    (((members.find? verboseKey).bind boolOf?).getD default.verbose)

def named? (members : Keyed Utf16 Json) : Option (Keyed Text Json) :=
  members.mapM fun (key, value) => key.text?.map fun name => (name, value)

/-- The settings that the members describe, or the keys that cannot be accepted. A key that is no
text makes the object as a whole unacceptable, which an empty key stands for. -/
def ofMembers (members : Keyed Utf16 Json) : Except (List Text) Settings :=
  match named? members with
  | none => .error [[]]
  | some members =>
    match offenders members with
    | [] => .ok (overriding members)
    | bad => .error bad

end ComponentCompiler.Settings
