import ComponentCompiler.Session

/-!
The command line. It compiles by the settings file of the working directory; its only option asks
for help.
-/

namespace ComponentCompiler.CommandLine

inductive Argument where
  | help
  | glued (text : Text)
  | endOfOptions
  | unknown
  deriving DecidableEq, Repr

def glued : Text → Argument
  | [] => .glued []
  | ['h'] => .help
  | 'h' :: c :: s => glued (c :: s)
  | s => .glued s

def long (arg : Text) : Argument :=
  let (name, text?) :=
    match Text.cut? ['='] arg with
    | some (name, text) => (name, some text)
    | none => (arg, none)
  if name.isPrefixOf "--help".toList then
    match text? with
    | some text => .glued text
    | none => .help
  else .unknown

def Argument.ofText (arg : Text) : Argument :=
  match arg with
  | ['-', '-'] => .endOfOptions
  | ['-', 'h'] => .help
  | '-' :: '-' :: _ => long arg
  | '-' :: 'h' :: '=' :: s => CommandLine.glued s
  | '-' :: 'h' :: s => CommandLine.glued s
  | _ => .unknown

inductive Request where
  | compile
  | help
  | gluedText (text : Text)
  | unrecognized (args : List Text)
  deriving DecidableEq, Repr

/-- Goes through the arguments from the left; the unknown ones are collected, and help or text glued
to it ends the matter. -/
def request (unknown : List Text) : List Text → Request
  | [] => if unknown = [] then .compile else .unrecognized unknown
  | arg :: rest =>
    match Argument.ofText arg with
    | .help => .help
    | .glued text => .gluedText text
    | .endOfOptions => .unrecognized (unknown ++ arg :: rest)
    | .unknown => request (unknown ++ [arg]) rest

def usage (program : Text) : Text :=
  "usage: ".toList ++ program ++ " [-h]\n".toList

def helpText (program : Text) : Text :=
  usage program ++
    "\nCompile .zmx components into a JavaScript module and HTML harness. Settings\n".toList ++
    "are read from zmx.json when present.\n\noptions:\n".toList ++
    "  -h, --help  show this help message and exit\n".toList

def misuse (program complaint : Text) : Text :=
  usage program ++ program ++ ": error: ".toList ++ complaint ++ ['\n']

def announcement (path : Utf16) : Utf16 :=
  .ofString "\x1b[92m\x1b[1mINFO:\x1b[0m Generated: " ++ path ++ .ofString "\n"

structure Result where
  session : Session
  output : Text := []
  log : Utf16 := []
  exit : Except Failure Nat

def compile (session : Session) : Result :=
  let step := session.build Settings.filename
  match step.result with
  | .ok written =>
    { session := step.session
      log := step.log ++ written.flatMap announcement
      exit := .ok 0 }
  | .error (.diagnosed d) =>
    { session := step.session
      log := step.log ++ .ofString "Error: Compilation Failed:\n" ++ d.message ++ .ofString "\n"
      exit := .ok 1 }
  | .error e => { session := step.session, log := step.log, exit := .error e }

def call (program : Text) (args : List Text) (session : Session) : Result :=
  match request [] args with
  | .compile => compile session
  | .help => { session, output := helpText program, exit := .ok 0 }
  | .gluedText text =>
    { session
      log := .ofText (misuse program
        ("argument -h/--help: ignored explicit argument ".toList ++ Text.Quoted.encode text))
      exit := .ok 2 }
  | .unrecognized args =>
    { session
      log := .ofText
        (misuse program ("unrecognized arguments: ".toList ++ Text.join [' '] args))
      exit := .ok 2 }

end ComponentCompiler.CommandLine
