import ComponentCompiler.Component.Catalog
import ComponentCompiler.Text.Quoted

/-! The phases of a run and the notices that it gives on its way. -/

namespace ComponentCompiler

inductive Phase where
  | idle
  | discovering
  | extracting
  | building
  | writing
  | done
  | failed
  deriving DecidableEq, Repr

def Phase.name : Phase → Text
  | .idle => "idle".toList
  | .discovering => "discovering".toList
  | .extracting => "extracting".toList
  | .building => "building".toList
  | .writing => "writing".toList
  | .done => "done".toList
  | .failed => "failed".toList

inductive Notice where
  | entered (before after : Phase)
  | discovered (count : Nat) (directory : Utf16)
  | registered (name : Utf16) (propNames : List Text)
  deriving DecidableEq, Repr

namespace Notice

def ofUnit (unit : SourceUnit) : Notice :=
  let component := Component.ofUnit unit
  .registered component.name component.propNames

open Utf16 (ofString ofText)

def message : Notice → Utf16
  | .entered before after =>
    ofString "Run state: " ++ ofText before.name ++ ofString " -> " ++ ofText after.name
  | .discovered count directory =>
    ofString "Discovered " ++ ofText (Text.ofNat count) ++ ofString " source unit(s) in " ++
      directory
  | .registered name propNames =>
    ofString "Registered '" ++ name ++ ofString "' with props " ++
      ofText (Text.Quoted.encodeList propNames)

def line (notice : Notice) : Utf16 :=
  ofString "\x1b[94mDEBUG:\x1b[0m " ++ notice.message ++ ofString "\n"

end Notice

def logText (verbose : Bool) (notices : List Notice) : Utf16 :=
  if verbose then notices.flatMap Notice.line else []

end ComponentCompiler
