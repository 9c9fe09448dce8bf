import ComponentCompiler.Artifact.Document
import ComponentCompiler.Artifact.Module

/-!
The two artifacts of a catalog, and the library that their fixed scripts are read from each time. A
script that cannot be read is not reported: its failure is passed on as it is.
-/

namespace ComponentCompiler

structure Scripts where
  frame : Module.Frame
  boot : Text
  deriving DecidableEq, Repr

def Scripts.bundled : Scripts :=
  ⟨.bundled, Fragment.boot⟩

/-- The directory of the scripts and the disk it is on. No run writes there. -/
structure Library where
  disk : Disk
  directory : Utf16

namespace Library

def bundled : Library :=
  ⟨Fragment.shelf, Fragment.directory⟩

def read (library : Library) (name : String) : Except Failure Text :=
  match library.disk.readText (Path.join library.directory (.ofString name)) with
  | .ok (.ok text) => .ok text
  | .ok (.error fault) => .error (.undecodable fault)
  | .error (.refused fault) => .error (.system fault.system)
  | .error (.unencodable fault) => .error (.unencodable fault)
  | .error .nullByte => .error .nullByte

def scripts (library : Library) : Except Failure Scripts := do
  let opening ← library.read "prelude.js"
  let closing ← library.read "initialize.js"
  let boot ← library.read "boot.js"
  return ⟨⟨opening, closing⟩, boot⟩

end Library

structure Artifacts where
  moduleText : Text
  documentText : Utf16
  deriving DecidableEq, Repr

namespace Artifacts

def make (scripts : Scripts) (catalog : Catalog) (settings : Settings) : Artifacts where
  moduleText := Module.text scripts.frame catalog settings
  documentText := Document.text scripts.boot catalog settings

def compile (library : Library) (catalog : Catalog) (settings : Settings) :
    Except Failure Artifacts :=
  library.scripts.map fun scripts => make scripts catalog settings

def ofCatalog (catalog : Catalog) (settings : Settings) : Artifacts :=
  make .bundled catalog settings

end Artifacts

end ComponentCompiler
