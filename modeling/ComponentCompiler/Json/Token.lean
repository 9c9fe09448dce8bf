import ComponentCompiler.Decimal.Numeral
import ComponentCompiler.Keyed
import ComponentCompiler.Text.Literal

/-!
JSON values, and the tokens of a JSON text. Integers are exact and other numbers are doubles. A text
that breaks the lexical rules ends in a token that says so; whether that matters, and where the
fault is then, is for the reader of the tokens. An integer with too many digits is a token too, and
only a fault where a value is due.
-/

namespace ComponentCompiler

inductive Json where
  | null
  | bool (b : Bool)
  | int (n : Int)
  | real (x : Binary64)
  | string (s : Utf16)
  | array (items : List Json)
  | object (members : List (Utf16 × Json))

inductive Json.Fault where
  | before (left : Nat)
  | oversized (digits : Nat)
  deriving DecidableEq, Repr

namespace Json

inductive Lexeme where
  | openObject
  | closeObject
  | openArray
  | closeArray
  | colon
  | comma
  | string (s : Utf16)
  | atom (value : Json)
  | oversized (digits : Nat)
  | bad (left : Nat)

/-- A lexeme and the number of characters from its first one to the end of the text. A bad one says
the same of the character at fault. -/
structure Token where
  left : Nat
  lexeme : Lexeme

def isSpace (c : Char) : Bool :=
  c = ' ' || c = '\t' || c = '\n' || c = '\r'

def words : List (Text × Json) :=
  [("null".toList, .null), ("true".toList, .bool true), ("false".toList, .bool false),
    ("NaN".toList, .real .nan), ("Infinity".toList, .real (.infinite false)),
    ("-Infinity".toList, .real (.infinite true))]

def word? (s : Text) : Option (Json × Text) :=
  words.findSome? fun (word, value) => (Text.after? word s).map fun rest => (value, rest)

def maxDigits : Nat := 4300

def number (n : Numeral) : Lexeme :=
  if n.isInteger then
    if maxDigits < n.whole.length then .oversized n.whole.length else .atom (.int n.toInt)
  else .atom (.real n.toBinary64)

def atom (s : Text) : Lexeme × Text :=
  match word? s with
  | some (value, rest) => (.atom value, rest)
  | none =>
    match Numeral.read? s with
    | some (n, rest) => (number n, rest)
    | none => (.bad s.length, [])

def next (c : Char) (s : Text) : Lexeme × Text :=
  match c with
  | '\x7b' => (.openObject, s)
  | '\x7d' => (.closeObject, s)
  | '[' => (.openArray, s)
  | ']' => (.closeArray, s)
  | ':' => (.colon, s)
  | ',' => (.comma, s)
  | '"' =>
    match Text.Literal.content (s.length + 1) s with
    | .ok (units, rest) => (.string units, rest)
    | .error left => (.bad left, [])
  | c => atom (c :: s)

theorem word?_length {s rest : Text} {v : Json} (h : word? s = some (v, rest)) :
    rest.length < s.length := by
  obtain ⟨p, hp, he⟩ := List.exists_of_findSome?_eq_some h
  obtain ⟨r, hr, hv⟩ := Option.map_eq_some_iff.1 he
  obtain ⟨rfl, rfl⟩ := Prod.mk.inj hv
  have hlen := Text.length_of_after? hr
  have hpos : ∀ q ∈ words, 0 < q.1.length := by
    simp [words]
  have := hpos p hp
  omega

theorem atom_length (c : Char) (s : Text) : (atom (c :: s)).2.length ≤ s.length := by
  unfold atom
  split
  · next h => simpa using Nat.le_of_lt_succ (word?_length h)
  · split
    · next h => simpa using Nat.le_of_lt_succ (Numeral.length_of_read? h)
    · simp

theorem next_length (c : Char) (s : Text) : (next c s).2.length ≤ s.length := by
  unfold next
  split <;> try exact Nat.le_refl _
  · split
    · next h => exact Text.Literal.length_of_content h
    · simp
  · exact atom_length _ _

def tokens : Text → List Token
  | [] => []
  | c :: s =>
    if isSpace c then tokens s
    else
      have := next_length c s
      ⟨s.length + 1, (next c s).1⟩ :: tokens (next c s).2
termination_by s => s.length

end Json

end ComponentCompiler
