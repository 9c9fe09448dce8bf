import ComponentCompiler.Decimal.Shortest
import ComponentCompiler.Keyed
import ComponentCompiler.Template.Basic
import ComponentCompiler.Text.Quoted

/-!
Property values, their texts, and rendering: every placeholder becomes the text of its property in
one pass over the template.
-/

namespace ComponentCompiler

inductive Value where
  | null
  | bool (b : Bool)
  | int (n : Int)
  | real (x : Binary64)
  | text (s : Text)
  | list (items : List Value)
  | record (fields : List (Text × Value))
  deriving Inhabited

namespace Value

mutual

def nested : Value → Text
  | .null => "None".toList
  | .bool b => (if b then "True" else "False").toList
  | .int n => Text.ofInt n
  | .real x => x.text
  | .text s => Text.Quoted.encode s
  | .list items => '[' :: Text.join ", ".toList (nestedItems items) ++ [']']
  | .record fields => '\x7b' :: Text.join ", ".toList (nestedFields fields) ++ ['\x7d']

def nestedItems : List Value → List Text
  | [] => []
  | v :: rest => nested v :: nestedItems rest

def nestedFields : List (Text × Value) → List Text
  | [] => []
  | (k, v) :: rest => (Text.Quoted.encode k ++ ':' :: ' ' :: nested v) :: nestedFields rest

end

def toText : Value → Text
  | .bool b => (if b then "true" else "false").toList
  | .real x =>
    match x.toInt? with
    | some n => Text.ofInt n
    | none => x.text
  | .text s => s
  | v => v.nested

end Value

abbrev Props := Keyed Text Value

def Placeholder.resolve (p : Placeholder) (props : Props) : Text :=
  let fallback := p.default?.getD []
  match props.find? p.name with
  | none => fallback
  | some .null => fallback
  | some v => if v.toText = [] then fallback else v.toText

def Segment.render (props : Props) : Segment → Text
  | .literal text => text
  | .hole p => p.resolve props

/-- Substituted text is not scanned again. -/
def Template.render (template : Text) (props : Props) : Text :=
  (scan template).flatMap (Segment.render props)

end ComponentCompiler
