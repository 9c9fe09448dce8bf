import ComponentCompiler.Artifact.Basic
import ComponentCompiler.Discovery
import ComponentCompiler.Run.Phase

/-!
Runs: one compilation of a source directory into an output directory, from discovery to the two
artifacts on disk. A run is executed once. It reads the scripts of the library when its catalog is
complete, changes nothing on disk before it writes, and writes the module before the document.
-/

namespace ComponentCompiler

structure Run where
  settings : Settings := {}
  phase : Phase := .idle
  catalog : Catalog := .empty
  artifacts? : Option Artifacts := none
  written : List Utf16 := []
  deriving DecidableEq, Repr

namespace Run

structure Outcome where
  run : Run
  disk : Disk
  notices : List Notice
  result : Except Failure (List Utf16)

def readUnit (disk : Disk) (settings : Settings) (filename : Utf16) :
    Except Failure SourceUnit :=
  (Discovery.readSource disk (Path.join settings.sourceDir filename)).map
    (SourceUnit.ofText (Discovery.componentName settings.sourceSuffix filename))

structure Writing where
  disk : Disk
  written : List Utf16
  failure? : Option Failure

def writeArtifact (disk : Disk) (path text : Utf16) : Disk × Option Failure :=
  let (disk, e?) := disk.writeText path text
  (disk, e?.map (Disk.Error.failure "write artifact".toList path))

def writeFiles (disk : Disk) : List (Utf16 × Utf16) → Writing
  | [] => ⟨disk, [], none⟩
  | (path, text) :: rest =>
    match writeArtifact disk path text with
    | (disk, some e) => ⟨disk, [], some e⟩
    | (disk, none) =>
      let w := writeFiles disk rest
      { w with written := path :: w.written }

def outputs (settings : Settings) (artifacts : Artifacts) : List (Utf16 × Utf16) :=
  [(Path.join settings.outputDir settings.moduleFilename, .ofText artifacts.moduleText),
    (Path.join settings.outputDir settings.htmlFilename, artifacts.documentText)]

def write (disk : Disk) (settings : Settings) (artifacts : Artifacts) : Writing :=
  match disk.ensureDirectories settings.outputDir with
  | (disk, some e) =>
    ⟨disk, [], some (e.failure "create output directory".toList settings.outputDir)⟩
  | (disk, none) => writeFiles disk (outputs settings artifacts)

def fail (run : Run) (disk : Disk) (notices : List Notice) (during : Phase) (e : Failure) :
    Outcome :=
  ⟨{ run with phase := .failed }, disk, notices ++ [.entered during .failed], .error e⟩

def alreadyExecuted (phase : Phase) : Failure :=
  .diagnosed
    { kind := .runOrder
      detail := "Compiler run already ".toList ++ phase.name
      hint? := some "Create a new CompilerRun for each compilation".toList }

def execute (run : Run) (library : Library) (disk : Disk) : Outcome :=
  if run.phase ≠ .idle then ⟨run, disk, [], .error (alreadyExecuted run.phase)⟩
  else
    let settings := run.settings
    let begun := [Notice.entered .idle .discovering]
    match Discovery.sources disk settings.sourceDir settings.sourceSuffix settings.entryName with
    | .error e => run.fail disk begun .discovering e
    | .ok filenames =>
      let found := begun ++
        [.discovered filenames.length settings.sourceDir, .entered .discovering .extracting]
      match filenames.mapM (readUnit disk settings) with
      | .error e => run.fail disk found .extracting e
      | .ok units =>
        let run := { run with catalog := .ofUnits units }
        let registered := found ++ .entered .extracting .building :: units.map Notice.ofUnit
        match Artifacts.compile library run.catalog settings with
        | .error e => run.fail disk registered .building e
        | .ok artifacts =>
          let built := registered ++ [.entered .building .writing]
          let w := write disk settings artifacts
          let run := { run with artifacts? := some artifacts, written := w.written }
          match w.failure? with
          | some e => run.fail w.disk built .writing e
          | none =>
            ⟨{ run with phase := .done }, w.disk, built ++ [.entered .writing .done], .ok w.written⟩

end Run

end ComponentCompiler
