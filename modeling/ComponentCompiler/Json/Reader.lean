import ComponentCompiler.Json.Token

/-!
Reading a JSON document from its tokens, one at a time, with the arrays and objects that are still
open kept on a stack.
-/

namespace ComponentCompiler.Json

inductive Frame where
  | array (items : List Json)
  | object (members : Keyed Utf16 Json) (key : Utf16)

inductive Progress where
  | value (frames : List Frame)
  | firstItem (frames : List Frame)
  | firstKey (frames : List Frame)
  | key (frames : List Frame) (members : Keyed Utf16 Json)
  | colon (frames : List Frame) (members : Keyed Utf16 Json) (key : Utf16)
  | complete (frames : List Frame) (value : Json)

def beginValue (frames : List Frame) (t : Token) : Except Fault Progress :=
  match t.lexeme with
  | .openObject => .ok (.firstKey frames)
  | .openArray => .ok (.firstItem frames)
  | .string s => .ok (.complete frames (.string s))
  | .atom value => .ok (.complete frames value)
  | .oversized digits => .error (.oversized digits)
  | .bad left => .error (.before left)
  | _ => .error (.before t.left)

def beginMember (frames : List Frame) (members : Keyed Utf16 Json) (t : Token) :
    Except Fault Progress :=
  match t.lexeme with
  | .string s => .ok (.colon frames members s)
  | .bad left => .error (.before left)
  | _ => .error (.before t.left)

def afterValue (frames : List Frame) (value : Json) (t : Token) : Except Fault Progress :=
  match frames, t.lexeme with
  | .array items :: frames, .comma => .ok (.value (.array (value :: items) :: frames))
  | .array items :: frames, .closeArray =>
    .ok (.complete frames (.array (value :: items).reverse))
  | .object members key :: frames, .comma => .ok (.key frames (members.put key value))
  | .object members key :: frames, .closeObject =>
    .ok (.complete frames (.object (members.put key value)))
  | _, _ => .error (.before t.left)

def Progress.step (p : Progress) (t : Token) : Except Fault Progress :=
  match p with
  | .value frames => beginValue frames t
  | .firstItem frames =>
    match t.lexeme with
    | .closeArray => .ok (.complete frames (.array []))
    | _ => beginValue (.array [] :: frames) t
  | .firstKey frames =>
    match t.lexeme with
    | .closeObject => .ok (.complete frames (.object []))
    | _ => beginMember frames [] t
  | .key frames members => beginMember frames members t
  | .colon frames members k =>
    match t.lexeme with
    | .colon => .ok (.value (.object members k :: frames))
    | _ => .error (.before t.left)
  | .complete frames v => afterValue frames v t

def Progress.run : Progress → List Token → Except Fault Json
  | .complete [] v, [] => .ok v
  | _, [] => .error (.before 0)
  | p, t :: rest =>
    match p.step t with
    | .ok q => q.run rest
    | .error fault => .error fault

def read (s : Text) : Except Fault Json :=
  (Progress.value []).run (tokens s)

end ComponentCompiler.Json
