import ComponentCompiler.Proofs.FileText
import ComponentCompiler.Proofs.JsonGrammar
import ComponentCompiler.Proofs.Literals

/-! Lexemes on a page: each is written in one way, with spaces wherever lexemes meet. The lexemes of
such a text are the ones that were written. -/

namespace ComponentCompiler.Json

def Lexeme.text? : Lexeme → Option Text
  | .openObject => some ['\x7b']
  | .closeObject => some ['\x7d']
  | .colon => some [':']
  | .comma => some [',']
  | .string s => some (Text.Literal.encode s)
  | .atom (.bool true) => some "true".toList
  | .atom (.bool false) => some "false".toList
  | _ => none

inductive Laid : List Lexeme → Text → Prop
  | nil : Laid [] []
  | space {ls : List Lexeme} {c : Char} {s : Text} (hc : isSpace c = true) (h : Laid ls s) :
      Laid ls (c :: s)
  | cons {l : Lexeme} {ls : List Lexeme} {t s : Text} (ht : l.text? = some t) (h : Laid ls s) :
      Laid (l :: ls) (t ++ s)

lemma next_of_text? {l : Lexeme} {t : Text} (h : l.text? = some t) (s : Text) :
    ∃ c u, t = c :: u ∧ isSpace c = false ∧ next c (u ++ s) = (l, s) := by
  revert h
  fun_cases Lexeme.text? l <;> intro h <;> cases h
  case case5 units =>
    refine ⟨'"', units.flatMap Text.Literal.encodeUnit ++ ['"'], rfl, rfl, ?_⟩
    rw [List.append_assoc, List.singleton_append, next, Text.Literal.content_units]
  all_goals exact ⟨_, _, rfl, rfl, rfl⟩

lemma return_notMem_text? {l : Lexeme} {t : Text} (h : l.text? = some t) : '\r' ∉ t := by
  revert h
  fun_cases Lexeme.text? l <;> intro h <;> cases h
  case case5 units =>
    intro hr
    exact absurd (Text.Literal.printable_of_mem_encode hr) (by decide)
  all_goals decide

lemma lexemes_space {c : Char} (hc : isSpace c = true) (s : Text) :
    lexemes (c :: s) = lexemes s := by
  rw [lexemes, tokens, if_pos hc, lexemes]

lemma lexemes_append {l : Lexeme} {t : Text} (h : l.text? = some t) (s : Text) :
    lexemes (t ++ s) = l :: lexemes s := by
  obtain ⟨c, u, rfl, hc, hnext⟩ := next_of_text? h s
  rw [List.cons_append, lexemes, tokens, if_neg (by rw [hc]; decide), hnext]
  rfl

namespace Laid

variable {ls : List Lexeme} {s : Text}

theorem lexemes_eq (h : Laid ls s) : lexemes s = ls := by
  induction h with
  | nil => rw [lexemes, tokens]; rfl
  | space hc _ ih => rw [lexemes_space hc, ih]
  | cons ht _ ih => rw [lexemes_append ht, ih]

theorem unifyNewlines (h : Laid ls s) : Laid ls s.unifyNewlines := by
  induction h with
  | nil => exact nil
  | @space ls c s hc _ ih =>
    by_cases hr : c = '\r'
    · subst hr
      rcases Text.unifyNewlines_return s with hs | hs
      · rwa [hs]
      · rw [hs]
        exact space rfl ih
    · rw [Text.unifyNewlines_cons hr]
      exact space hc ih
  | cons ht _ ih =>
    rw [Text.unifyNewlines_append (return_notMem_text? ht)]
    exact cons ht ih

lemma of_texts {ts : List Text} (h : ls.mapM Lexeme.text? = some ts) (hs : ts.flatten = s) :
    Laid ls s := by
  subst hs
  induction ls generalizing ts with
  | nil =>
    cases h
    exact nil
  | cons l ls ih =>
    simp only [List.mapM_cons, Option.bind_eq_bind, Option.bind_eq_some_iff] at h
    obtain ⟨t, ht, ts, hts, h⟩ := h
    cases h
    exact cons ht (ih hts)

end Laid

inductive Plain where
  | text (s : Utf16)
  | truth (b : Bool)

namespace Plain

def value : Plain → Json
  | .text s => .string s
  | .truth b => .bool b

def member (key : Utf16) : Plain → Member
  | .text s => ⟨key, [.string s], .string s⟩
  | .truth b => ⟨key, [.atom (.bool b)], .bool b⟩

lemma spells_member (key : Utf16) (p : Plain) :
    Spells (p.member key).lexemes (p.member key).value := by
  cases p with
  | text s => exact .string s
  | truth b => exact .atom _

lemma pair_member (key : Utf16) (p : Plain) : (p.member key).pair = (key, p.value) := by
  cases p <;> rfl

def object (members : List (Utf16 × Plain)) : List Lexeme :=
  .openObject :: [.comma].intercalate (members.map fun m => (m.2.member m.1).written) ++
    [.closeObject]

theorem holds_of_laid {members : List (Utf16 × Plain)} {s : Text} (h : Laid (object members) s) :
    Holds s (members.map fun m => (m.1, m.2.value)) := by
  refine ⟨members.map fun m => m.2.member m.1, ?_, ?_, ?_⟩
  · intro m hm
    obtain ⟨p, -, rfl⟩ := List.mem_map.mp hm
    exact spells_member _ _
  · rw [h.lexemes_eq, object, List.map_map]
    rfl
  · simp [pair_member]

end Plain

end ComponentCompiler.Json
