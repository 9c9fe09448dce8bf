import ComponentCompiler.Text.Utf16

/-!
Source units: a component's template, style and script in one text, each between its own marks.
-/

namespace ComponentCompiler

inductive Section where
  | template
  | style
  | script
  deriving DecidableEq, Repr

namespace Section

def all : List Section :=
  [.template, .style, .script]

def name : Section → Text
  | .template => "template".toList
  | .style => "style".toList
  | .script => "script".toList

def ofName? (name : Text) : Option Section :=
  all.find? fun sec => sec.name = name

def opening (sec : Section) : Text :=
  '<' :: sec.name ++ ['>']

def closing (sec : Section) : Text :=
  '<' :: '/' :: sec.name ++ ['>']

def body? (sec : Section) (source : Text) : Option Text := do
  let (_, rest) ← Text.cut? sec.opening source
  let (body, _) ← Text.cut? sec.closing rest
  return body

def body (sec : Section) (source : Text) : Text :=
  (sec.body? source).getD []

end Section

/-- A named source text taken apart. The script is kept and plays no part in the artifacts. -/
structure SourceUnit where
  name : Utf16
  template : Text := []
  style : Text := []
  script : Text := []
  deriving DecidableEq, Repr

def SourceUnit.ofText (name : Utf16) (source : Text) : SourceUnit where
  name := name
  template := Section.template.body source
  style := Section.style.body source
  script := Section.script.body source

end ComponentCompiler
