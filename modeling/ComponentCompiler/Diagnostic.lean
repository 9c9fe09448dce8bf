import ComponentCompiler.Text.Encoding

/-!
Reports of what stops a compilation. A diagnostic is the compiler's own report, with the path that
it concerns and a hint where there is one; a failure is a diagnostic or one of the few faults that
are passed on as they are.
-/

namespace ComponentCompiler

inductive SystemError.Cause where
  | denied
  | missing
  | noProcess
  | interrupted
  | occupied
  | notDirectory
  | isDirectory
  | other
  deriving DecidableEq, Repr

def SystemError.Cause.ofCode (code : Int) : Cause :=
  if code = 1 ∨ code = 13 then .denied
  else if code = 2 then .missing
  else if code = 3 then .noProcess
  else if code = 4 then .interrupted
  else if code = 17 then .occupied
  else if code = 20 then .notDirectory
  else if code = 21 then .isDirectory
  else .other

/-- An operating system error. One without a code has no text of the system, only its own. -/
structure SystemError where
  cause : SystemError.Cause
  code? : Option Int
  text : Text
  deriving DecidableEq, Repr

namespace SystemError

def ofCode (code : Int) (text : Text) : SystemError :=
  ⟨.ofCode code, some code, text⟩

def reason (e : SystemError) : Text :=
  match e.text, e.code? with
  | [], some code => "[Errno ".toList ++ Text.ofInt code ++ "] ".toList
  | text, _ => text

def hint? (e : SystemError) : Option Text :=
  match e.cause with
  | .missing => some "Check that the path exists".toList
  | .denied => some "Check the permissions of the path".toList
  | _ => none

end SystemError

inductive Diagnostic.Kind where
  | general
  | fileSystem
  | settings
  | runOrder
  deriving DecidableEq, Repr

structure Diagnostic where
  kind : Diagnostic.Kind
  detail : Text
  path? : Option Utf16 := none
  hint? : Option Text := none
  deriving DecidableEq, Repr

namespace Diagnostic

def ofSystem (action : Text) (path : Utf16) (e : SystemError) : Diagnostic where
  kind := .fileSystem
  detail := "Could not ".toList ++ action ++ ": ".toList ++ e.reason
  path? := some path
  hint? := e.hint?

open Utf16 (ofString ofText)

def message (d : Diagnostic) : Utf16 :=
  let place :=
    match d.path?.getD [] with
    | [] => []
    | path => ofString " in '" ++ path ++ ofString "'"
  let advice :=
    match d.hint?.getD [] with
    | [] => []
    | hint => ofString "   💡 " ++ ofText hint ++ ofString "\n"
  ofString "\n❌ Compilation Error" ++ place ++ ofString ":\n   " ++ ofText d.detail ++
    ofString "\n" ++ advice

end Diagnostic

inductive Failure where
  | diagnosed (d : Diagnostic)
  | undecodable (fault : Text.Utf8.Fault)
  | unencodable (fault : Utf16.Fault)
  | nullByte
  | oversized (digits : Nat)
  /-- A script of the compiler's own that the system refuses. -/
  | system (e : SystemError)
  deriving DecidableEq, Repr

def Failure.message : Failure → Utf16
  | .diagnosed d => d.message
  | .undecodable fault => .ofText fault.message
  | .unencodable fault => .ofText fault.message
  | .nullByte => .ofString "embedded null byte"
  | .oversized digits =>
    .ofText
      ("Exceeds the limit (4300 digits) for integer string conversion: value has ".toList ++
        Text.ofNat digits ++
        " digits; use sys.set_int_max_str_digits() to increase the limit".toList)
  | .system e => .ofText e.text

end ComponentCompiler
