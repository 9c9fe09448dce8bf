import ComponentCompiler.Text.Encoding

/-!
Names of entries and paths. A disk keeps a name as bytes, which need not be UTF-8. A path is names
between slashes; reports show it as it was given, so it stays a text, and where it is followed its
bytes are taken apart into steps.
-/

namespace ComponentCompiler

namespace Name

def slash : UInt8 := 0x2f

def dot : List UInt8 := [0x2e]

def dotDot : List UInt8 := [0x2e, 0x2e]

def isValid (bytes : List UInt8) : Bool :=
  bytes ≠ [] && bytes ≠ dot && bytes ≠ dotDot && !bytes.contains slash && !bytes.contains 0

end Name

structure Name where
  bytes : List UInt8
  valid : Name.isValid bytes = true
  deriving DecidableEq, Repr

namespace Name

def ofBytes? (bytes : List UInt8) : Option Name :=
  if h : isValid bytes = true then some ⟨bytes, h⟩ else none

def text (name : Name) : Utf16 :=
  .decodePath name.bytes

end Name

namespace Path

def slash : UInt16 := Utf16.unit '/'

def dot : Utf16 := [Utf16.unit '.']

def isAbsolute (path : Utf16) : Bool :=
  path.head? = some slash

def endsInSlash (path : Utf16) : Bool :=
  path.getLast? = some slash

def join (dir name : Utf16) : Utf16 :=
  if dir = [] ∨ isAbsolute name then name
  else if endsInSlash dir then dir ++ name
  else dir ++ slash :: name

def isAncestorEnd (path : Utf16) (i : Nat) : Bool :=
  path[i]? ≠ some slash && path[i + 1]? = some slash && (path.drop (i + 1)).any (· ≠ slash)

/-- The paths of the directories above the last name, nearest first, as far as they are written. -/
def ancestors (path : Utf16) : List Utf16 :=
  ((List.range path.length).reverse.filter (isAncestorEnd path)).map fun i => path.take (i + 1)

def lastName? (path : Utf16) : Option Utf16 :=
  ((Text.splitAt slash path).filter (· ≠ [])).getLast?

inductive Step where
  | here
  | up
  | down (name : Name)
  deriving DecidableEq, Repr

def Step.ofPiece (piece : List UInt8) : Step :=
  if piece = Name.dotDot then .up
  else
    match Name.ofBytes? piece with
    | some name => .down name
    | none => .here

def steps (path : List UInt8) : List Step :=
  ((Text.splitAt Name.slash path).filter (· ≠ [])).map Step.ofPiece

end Path

end ComponentCompiler
