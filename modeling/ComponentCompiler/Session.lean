import ComponentCompiler.Run.Basic
import ComponentCompiler.Settings.File

/-!
A session: a disk, the library of the scripts, the runs made, and whether notices are shown. Each
step gives the session after it, what it writes to the error stream, and a value or a failure.
-/

namespace ComponentCompiler

structure Session where
  disk : Disk
  library : Library := .bundled
  verbose : Bool := false
  runs : Keyed Text Run := []

namespace Session

structure Step (α : Type) where
  session : Session
  log : Utf16 := []
  result : Except Failure α

def begin (session : Session) (name : Text) (settings : Settings) : Session :=
  { session with runs := session.runs.put name { settings } }

def execute? (session : Session) (name : Text) : Option (Step (List Utf16)) := do
  let run ← session.runs.find? name
  let outcome := run.execute session.library session.disk
  return {
    session := { session with disk := outcome.disk, runs := session.runs.put name outcome.run }
    log := logText session.verbose outcome.notices
    result := outcome.result }

def compile (session : Session) (settings : Settings) : Step (List Utf16) :=
  let outcome := Run.execute { settings } session.library session.disk
  { session := { session with disk := outcome.disk }
    log := logText session.verbose outcome.notices
    result := outcome.result }

/-- Compiles by the settings in a file, which also decide whether notices are shown from then on. -/
def build (session : Session) (path : Utf16) : Step (List Utf16) :=
  match Settings.load session.disk path with
  | .error e => { session, result := .error e }
  | .ok settings => { session with verbose := settings.verbose }.compile settings

end Session

end ComponentCompiler
