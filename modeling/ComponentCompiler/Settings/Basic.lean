import ComponentCompiler.Text.Utf16

/-! The settings of a compilation, each with its default. -/

namespace ComponentCompiler

structure Settings where
  sourceDir : Utf16 := .ofString "."
  outputDir : Utf16 := .ofString "./dist"
  sourceSuffix : Utf16 := .ofString ".zmx"
  entryName : Utf16 := .ofString "main"
  moduleFilename : Utf16 := .ofString "components.js"
  htmlFilename : Utf16 := .ofString "index.html"
  rootId : Utf16 := .ofString "generated-component-container"
  componentAttribute : Utf16 := .ofString "data-component"
  title : Utf16 := .ofString "Generated Components"
  verbose : Bool := false
  deriving DecidableEq, Repr

inductive Settings.Field where
  | sourceDir
  | outputDir
  | sourceSuffix
  | entryName
  | moduleFilename
  | htmlFilename
  | rootId
  | componentAttribute
  | title
  deriving DecidableEq, Repr

namespace Settings

def default : Settings := {}

def Field.all : List Field :=
  [.sourceDir, .outputDir, .sourceSuffix, .entryName, .moduleFilename, .htmlFilename, .rootId,
    .componentAttribute, .title]

def Field.key : Field → Text
  | .sourceDir => "source_dir".toList
  | .outputDir => "output_dir".toList
  | .sourceSuffix => "source_suffix".toList
  | .entryName => "entry_name".toList
  | .moduleFilename => "module_filename".toList
  | .htmlFilename => "html_filename".toList
  | .rootId => "root_id".toList
  | .componentAttribute => "component_attribute".toList
  | .title => "title".toList

def verboseKey : Text := "verbose".toList

def keys : List Text :=
  Field.all.map Field.key ++ [verboseKey]

def get (s : Settings) : Field → Utf16
  | .sourceDir => s.sourceDir
  | .outputDir => s.outputDir
  | .sourceSuffix => s.sourceSuffix
  | .entryName => s.entryName
  | .moduleFilename => s.moduleFilename
  | .htmlFilename => s.htmlFilename
  | .rootId => s.rootId
  | .componentAttribute => s.componentAttribute
  | .title => s.title

def ofFields (text : Field → Utf16) (verbose : Bool) : Settings where
  sourceDir := text .sourceDir
  outputDir := text .outputDir
  sourceSuffix := text .sourceSuffix
  entryName := text .entryName
  moduleFilename := text .moduleFilename
  htmlFilename := text .htmlFilename
  rootId := text .rootId
  componentAttribute := text .componentAttribute
  title := text .title
  verbose := verbose

end Settings

end ComponentCompiler
