/-!
Texts as lists of characters, with what the compiler does to them: finding the first occurrence of a
mark, replacing every occurrence, splitting at a character, trimming, unifying line endings.
-/

namespace ComponentCompiler

abbrev Text := List Char

namespace Text

def after? : Text → Text → Option Text
  | [], s => some s
  | _ :: _, [] => none
  | m :: mark, c :: s => if m = c then after? mark s else none

def cut? (mark : Text) : Text → Option (Text × Text)
  | [] => (after? mark []).map fun rest => ([], rest)
  | c :: s =>
    match after? mark (c :: s) with
    | some rest => some ([], rest)
    | none => (cut? mark s).map fun (before, rest) => (c :: before, rest)

theorem length_of_after? {mark s rest : Text} (h : after? mark s = some rest) :
    s.length = mark.length + rest.length := by
  induction mark generalizing s with
  | nil => simp_all [after?]
  | cons m mark ih =>
    cases s with
    | nil => simp [after?] at h
    | cons c s =>
      by_cases hc : m = c
      · simp only [after?, hc, if_true] at h
        simp [ih h]
        omega
      · simp [after?, hc] at h

theorem length_of_cut? {mark s before rest : Text} (h : cut? mark s = some (before, rest)) :
    s.length = before.length + mark.length + rest.length := by
  induction s generalizing before with
  | nil =>
    obtain ⟨r, hr, he⟩ := Option.map_eq_some_iff.1 h
    obtain ⟨rfl, rfl⟩ := Prod.mk.inj he
    simpa using length_of_after? hr
  | cons c s ih =>
    rw [cut?] at h
    split at h
    · next r hr =>
      obtain ⟨rfl, rfl⟩ := Prod.mk.inj (Option.some.inj h)
      simpa using length_of_after? hr
    · obtain ⟨⟨b, r⟩, hb, he⟩ := Option.map_eq_some_iff.1 h
      obtain ⟨rfl, rfl⟩ := Prod.mk.inj he
      simp [ih hb]
      omega

/-- Replaces from left to right, passing over `skip` characters of an occurrence just replaced. -/
def replaceFrom (mark new : Text) : (skip : Nat) → Text → Text
  | _, [] => []
  | skip + 1, _ :: s => replaceFrom mark new skip s
  | 0, c :: s =>
    match after? mark (c :: s) with
    | some _ => new ++ replaceFrom mark new (mark.length - 1) s
    | none => c :: replaceFrom mark new 0 s

def replace (mark new s : Text) : Text :=
  replaceFrom mark new 0 s

def splitAt {α : Type} [DecidableEq α] (sep : α) : List α → List (List α)
  | [] => [[]]
  | c :: s =>
    if c = sep then [] :: splitAt sep s
    else
      match splitAt sep s with
      | [] => [[c]]
      | piece :: rest => (c :: piece) :: rest

def dropEndWhile (p : Char → Bool) (s : Text) : Text :=
  (s.reverse.dropWhile p).reverse

/-- White space and the separators of lines, paragraphs, files and records. Zero-width characters
are not blank. -/
def isBlank (c : Char) : Bool :=
  let n := c.toNat
  (0x09 ≤ n && n ≤ 0x0d) || (0x1c ≤ n && n ≤ 0x20) || n == 0x85 || n == 0xa0 || n == 0x1680 ||
    (0x2000 ≤ n && n ≤ 0x200a) || n == 0x2028 || n == 0x2029 || n == 0x202f || n == 0x205f ||
    n == 0x3000

def trim (s : Text) : Text :=
  dropEndWhile isBlank (s.dropWhile isBlank)

def unifyNewlines : Text → Text
  | [] => []
  | '\r' :: '\n' :: s => '\n' :: unifyNewlines s
  | '\r' :: s => '\n' :: unifyNewlines s
  | c :: s => c :: unifyNewlines s

def join (sep : Text) (parts : List Text) : Text :=
  List.intercalate sep parts

def ofNat (n : Nat) : Text :=
  Nat.toDigits 10 n

def ofInt (n : Int) : Text :=
  if n < 0 then '-' :: ofNat n.natAbs else ofNat n.natAbs

def hex (width n : Nat) : Text :=
  let digits := Nat.toDigits 16 n
  List.replicate (width - digits.length) '0' ++ digits

end Text

end ComponentCompiler
