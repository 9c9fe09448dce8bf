import ComponentCompiler.CommandLine

/-!
The program on the disk of the machine: what a compilation looks at is copied into a disk value, the
command line is called on it, and what it made is written back.
-/

namespace ComponentCompiler

def machineText (s : Utf16) : String :=
  String.ofList (s.points.map fun point => point.char?.getD '\ufffd')

def machinePath (location : Location) : String :=
  machineText (Path.slash :: Utf16.join [Path.slash] (location.reverse.map Name.text))

def machineEntry (location : Location) : IO (Option Entry) := do
  let place := (← IO.currentDir) / machinePath location
  if ← place.isDir then return some .directory
  else if ← place.pathExists then
    return some (.file (← IO.FS.readBinFile place).toList)
  else return none

def copyEntry (disk : Disk) (location : Location) : IO Disk := do
  match ← machineEntry location with
  | some entry => return disk.put location entry
  | none => return disk

def copyPath (disk : Disk) (path : Utf16) : IO Disk := do
  let mut disk := disk
  for step in (path :: Path.ancestors path).reverse do
    match disk.target step with
    | .ok (parent, .down name) => disk ← copyEntry disk (name :: parent.location)
    | _ => pure ()
  return disk

def copyDirectory (disk : Disk) (path : Utf16) : IO Disk := do
  let mut disk ← copyPath disk path
  match disk.locate path with
  | .ok place =>
    if disk.isDirectoryAt place then
      let directory := (← IO.currentDir) / machinePath place.location
      for entry in ← directory.readDir do
        if let some name := Name.ofBytes? (Text.Utf8.encode entry.fileName.toList) then
          disk ← copyEntry disk (name :: place.location)
    return disk
  | .error _ => return disk

def copyMachine : IO Disk := do
  let here := Text.Utf8.encode (← IO.currentDir).toString.toList
  let home := (Text.splitAt Name.slash here).filterMap Name.ofBytes?
  let disk ← copyPath (.ofHome home.reverse) Settings.filename
  match Settings.load disk Settings.filename with
  | .error _ => return disk
  | .ok settings =>
    let disk ← copyDirectory disk settings.sourceDir
    let disk ← copyPath disk settings.outputDir
    let disk ← copyPath disk (Path.join settings.outputDir settings.moduleFilename)
    copyPath disk (Path.join settings.outputDir settings.htmlFilename)

def writeBack (before after : Disk) : IO Unit := do
  for (location, entry) in after.entries do
    if before.entry? location ≠ some entry then
      match entry with
      | .directory => IO.FS.createDir (machinePath location)
      | .file bytes => IO.FS.writeBinFile (machinePath location) bytes.toByteArray

end ComponentCompiler

open ComponentCompiler in
def main (args : List String) : IO UInt32 := do
  let disk ← copyMachine
  let result := CommandLine.call "zmx".toList (args.map String.toList) { disk }
  writeBack disk result.session.disk
  IO.print (String.ofList result.output)
  IO.eprint (machineText result.log)
  match result.exit with
  | .ok code => return code.toUInt32
  | .error e =>
    IO.eprintln (machineText e.message)
    return 1
