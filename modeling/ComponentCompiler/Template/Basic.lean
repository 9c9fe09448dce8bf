import ComponentCompiler.Text.Basic

/-!
Templates: literal text with placeholders between braces. Scanning finds the placeholders from left
to right; a brace that opens none is literal text.
-/

namespace ComponentCompiler

structure Placeholder where
  name : Text
  default? : Option Text
  deriving DecidableEq, Repr

def Placeholder.ofBody (body : Text) : Placeholder :=
  match Text.cut? [':'] body with
  | some (name, default) => ⟨Text.trim name, some (Text.trim default)⟩
  | none => ⟨Text.trim body, none⟩

inductive Segment where
  | literal (text : Text)
  | hole (placeholder : Placeholder)
  deriving DecidableEq, Repr

def Segment.placeholder? : Segment → Option Placeholder
  | .literal _ => none
  | .hole p => some p

namespace Template

def pushChar (c : Char) : List Segment → List Segment
  | .literal text :: rest => .literal (c :: text) :: rest
  | segments => .literal [c] :: segments

/-- The body of a placeholder whose opening brace has been read, and what follows its closing brace:
the body reaches to the first closing brace and is not empty. -/
def body? (s : Text) : Option (Text × Text) :=
  match Text.cut? ['\x7d'] s with
  | some (c :: body, rest) => some (c :: body, rest)
  | _ => none

theorem length_of_body? {s body rest : Text} (h : body? s = some (body, rest)) :
    rest.length < s.length := by
  unfold body? at h
  split at h
  · next hc =>
    obtain ⟨_, rfl⟩ := Prod.mk.inj (Option.some.inj h)
    have := Text.length_of_cut? hc
    simp only [List.length_cons] at this
    omega
  · simp at h

def scan : Text → List Segment
  | [] => []
  | c :: s =>
    if c = '\x7b' then
      match h : body? s with
      | some (body, rest) =>
        have := length_of_body? h
        .hole (.ofBody body) :: scan rest
      | none => pushChar c (scan s)
    else pushChar c (scan s)
termination_by s => s.length

def placeholders (template : Text) : List Placeholder :=
  (scan template).filterMap Segment.placeholder?

def propNames (template : Text) : List Text :=
  (placeholders template).map Placeholder.name

end Template

end ComponentCompiler
