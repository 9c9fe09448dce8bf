import ComponentCompiler.Proofs.TemplateScanning

/-! A template read by a prioritised lexer whose literal tokens are merged afterwards: the result is
the same as that of scanning. -/

namespace ComponentCompiler.Template

def attach : Segment → List Segment → List Segment
  | .literal s, .literal s' :: more => .literal (s ++ s') :: more
  | segment, more => segment :: more

def join : List Segment → List Segment → List Segment
  | [], right => right
  | [a], right => attach a right
  | a :: b :: more, right => a :: join (b :: more) right

lemma attach_nil (a : Segment) : attach a [] = [a] := by
  cases a <;> rfl

lemma attach_attach (s s' : Text) (right : List Segment) :
    attach (.literal s) (attach (.literal s') right) = attach (.literal (s ++ s')) right := by
  cases right with
  | nil => rfl
  | cons b more =>
    cases b with
    | literal t =>
      simp only [attach, List.append_assoc]
    | hole p => rfl

lemma join_attach (a : Segment) (left right : List Segment) :
    join (attach a left) right = attach a (join left right) := by
  cases left with
  | nil => rw [attach_nil]; rfl
  | cons b more =>
    cases a with
    | hole p => rfl
    | literal s =>
      cases b with
      | hole p => cases more <;> rfl
      | literal s' =>
        cases more with
        | nil => exact (attach_attach s s' right).symm
        | cons c more => rfl

lemma join_cons {left : List Segment} (h : left ≠ []) (a : Segment) (right : List Segment) :
    join (a :: left) right = a :: join left right := by
  obtain ⟨b, left, rfl⟩ := List.exists_cons_of_ne_nil h
  rfl

lemma join_ne_nil {left : List Segment} (h : left ≠ []) (right : List Segment) :
    join left right ≠ [] := by
  obtain ⟨a, left, rfl⟩ := List.exists_cons_of_ne_nil h
  cases left with
  | nil =>
    rw [join, attach.eq_def]
    split <;> simp
  | cons b left => exact List.cons_ne_nil _ _

lemma join_assoc (a b c : List Segment) : join (join a b) c = join a (join b c) := by
  induction a with
  | nil => rfl
  | cons x a ih =>
    cases a with
    | nil => exact join_attach x b c
    | cons y a =>
      have hne : y :: a ≠ [] := List.cons_ne_nil y a
      rw [join_cons hne, join_cons (join_ne_nil hne b), join_cons hne, ih]

lemma join_nil (left : List Segment) : join left [] = left := by
  induction left with
  | nil => rfl
  | cons a left ih =>
    cases left with
    | nil => exact attach_nil a
    | cons b left => exact congrArg (a :: ·) ih

instance : Std.Associative join where
  assoc := join_assoc

instance : Std.LawfulRightIdentity join [] where
  right_id := join_nil

lemma foldl_join (segments : List Segment) :
    segments.foldl (fun done a => join done [a]) [] = segments.foldr attach [] := by
  calc segments.foldl (fun done a => join done [a]) []
      = (segments.map ([·])).foldl join [] := by rw [List.foldl_map]
    _ = join [] ((segments.map ([·])).foldr join []) := List.foldl_eq_apply_foldr
    _ = segments.foldr attach [] := by
      rw [List.foldr_map]
      rfl

lemma pushChar_eq_attach (c : Char) (segments : List Segment) :
    pushChar c segments = attach (.literal [c]) segments := by
  cases segments with
  | nil => rfl
  | cons a segments => cases a <;> rfl

lemma scan_text {s : Text} (hne : s ≠ []) (hs : '\x7b' ∉ s) (rest : Text) :
    scan (s ++ rest) = attach (.literal s) (scan rest) := by
  induction s with
  | nil => exact (hne rfl).elim
  | cons c s ih =>
    obtain ⟨hc, hs⟩ := not_or.mp (mt List.mem_cons.mpr hs)
    rw [List.cons_append, scan_char (fun h => (hc h.symm).elim), pushChar_eq_attach]
    cases s with
    | nil => rfl
    | cons d s => rw [ih (List.cons_ne_nil d s) hs, attach_attach]; rfl

inductive Terminal where
  | placeholder
  | text
  | brace
  deriving DecidableEq, Repr

def Terminal.Accepts : Terminal → Text → Prop
  | .placeholder, s => ∃ body, body ≠ [] ∧ '\x7d' ∉ body ∧ s = '\x7b' :: body ++ ['\x7d']
  | .text, s => s ≠ [] ∧ '\x7b' ∉ s
  | .brace, s => s = ['\x7b']

def Terminal.priority : Terminal → Nat
  | .placeholder => 2
  | .text => 0
  | .brace => 0

def Terminal.segment : Terminal → Text → Segment
  | .placeholder, lexeme => .hole (.ofBody lexeme.tail.dropLast)
  | .text, lexeme => .literal lexeme
  | .brace, lexeme => .literal lexeme

inductive Lexes : Text → List (Terminal × Text) → Prop
  | nil : Lexes [] []
  | cons {k : Terminal} {lexeme rest : Text} {tokens : List (Terminal × Text)}
      (hk : k.Accepts lexeme)
      (hlongest : ∀ other, other <+: lexeme ++ rest → k.Accepts other →
        other.length ≤ lexeme.length)
      (hfirst : ∀ k' other, other <+: lexeme ++ rest → Terminal.Accepts k' other →
        k'.priority ≤ k.priority)
      (hrest : Lexes rest tokens) : Lexes (lexeme ++ rest) ((k, lexeme) :: tokens)

lemma inert_iff_no_placeholder {s : Text} :
    Inert s ↔ ∀ lexeme, lexeme <+: '\x7b' :: s → ¬ Terminal.placeholder.Accepts lexeme := by
  constructor
  · rintro hi lexeme ⟨rest, hs⟩ ⟨body, hne, hb, rfl⟩
    obtain rfl : body ++ '\x7d' :: rest = s := by simpa using hs
    exact not_inert hne hb rest hi
  · intro h
    rw [← body?_eq_none_iff, Option.eq_none_iff_forall_ne_some]
    rintro ⟨body, rest⟩ hb
    obtain ⟨rfl, hne, hn⟩ := body?_eq_some_iff.mp hb
    exact h ('\x7b' :: body ++ ['\x7d']) ⟨rest, by simp⟩ ⟨body, hne, hn, rfl⟩

theorem scan_of_lexes {template : Text} {tokens : List (Terminal × Text)}
    (h : Lexes template tokens) :
    scan template = (tokens.map fun (k, lexeme) => k.segment lexeme).foldr attach [] := by
  induction h with
  | nil => rw [scan]; rfl
  | @cons k lexeme rest tokens hk hlongest hfirst hrest ih =>
    rw [List.map_cons, List.foldr_cons, ← ih]
    cases k with
    | placeholder =>
      obtain ⟨body, hne, hb, rfl⟩ := hk
      rw [List.append_assoc, List.singleton_append, scan_hole hne hb]
      simp [Terminal.segment, attach]
    | text => exact scan_text hk.1 hk.2 rest
    | brace =>
      obtain rfl : lexeme = ['\x7b'] := hk
      have hi : Inert rest := inert_iff_no_placeholder.mpr fun other hp ha =>
        absurd (hfirst .placeholder other hp ha) (by decide)
      rw [List.singleton_append, scan_char (fun _ => hi), pushChar_eq_attach]
      rfl

lemma lexes_placeholder {body rest : Text} {tokens : List (Terminal × Text)} (hne : body ≠ [])
    (hb : '\x7d' ∉ body) (h : Lexes rest tokens) :
    Lexes ('\x7b' :: body ++ ['\x7d'] ++ rest)
      ((.placeholder, '\x7b' :: body ++ ['\x7d']) :: tokens) := by
  refine .cons ⟨body, hne, hb, rfl⟩ ?_ ?_ h
  · rintro other ⟨more, hs⟩ ⟨body', -, hb', rfl⟩
    have hs : body ++ '\x7d' :: rest = body' ++ '\x7d' :: more := by simpa using hs.symm
    rw [(body_unique hb hb' hs).1]
  · rintro k' - - -
    cases k' <;> decide

lemma lexes_brace {rest : Text} {tokens : List (Terminal × Text)} (hi : Inert rest)
    (h : Lexes rest tokens) : Lexes ('\x7b' :: rest) ((.brace, ['\x7b']) :: tokens) := by
  change Lexes (['\x7b'] ++ rest) _
  refine .cons rfl ?_ ?_ h
  · rintro other - rfl
    exact le_rfl
  · intro k' other hp ha
    cases k' with
    | placeholder => exact (inert_iff_no_placeholder.mp hi other hp ha).elim
    | text => exact le_rfl
    | brace => exact le_rfl

lemma lexes_text {s rest : Text} {tokens : List (Terminal × Text)} (hne : s ≠ []) (hs : '\x7b' ∉ s)
    (hrest : ∀ c more, rest = c :: more → c = '\x7b') (h : Lexes rest tokens) :
    Lexes (s ++ rest) ((.text, s) :: tokens) := by
  refine .cons ⟨hne, hs⟩ ?_ ?_ h
  · rintro other hp ⟨-, ho⟩
    by_contra hl
    obtain ⟨more, rfl⟩ := List.prefix_of_prefix_length_le (List.prefix_append s rest) hp (by omega)
    obtain ⟨after, hr⟩ := (List.prefix_append_right_inj s).mp hp
    cases more with
    | nil => simp at hl
    | cons c more =>
      obtain rfl := hrest c (more ++ after) hr.symm
      simp at ho
  · intro k' other hp ha
    cases k' with
    | placeholder =>
      obtain ⟨body, -, -, rfl⟩ := ha
      obtain ⟨c, s, rfl⟩ := List.exists_cons_of_ne_nil hne
      obtain ⟨rfl, -⟩ := List.cons_prefix_cons.mp hp
      simp at hs
    | text => exact le_rfl
    | brace => exact le_rfl

theorem exists_lexes (template : Text) : ∃ tokens, Lexes template tokens := by
  induction template using (measure List.length).wf.induction with
  | h template ih =>
    cases template with
    | nil => exact ⟨[], .nil⟩
    | cons c s =>
      by_cases hc : c = '\x7b'
      · subst hc
        cases hb : body? s with
        | none =>
          obtain ⟨tokens, h⟩ := ih s (Nat.lt_succ_self _)
          exact ⟨_, lexes_brace (body?_eq_none_iff.mp hb) h⟩
        | some p =>
          obtain ⟨tokens, h⟩ := ih p.2 (Nat.lt_succ_of_lt (length_of_body? hb))
          obtain ⟨rfl, hne, hn⟩ := body?_eq_some_iff.mp hb
          exact ⟨_, by simpa using lexes_placeholder hne hn h⟩
      · by_cases hm : '\x7b' ∈ s
        · obtain ⟨before, rest, rfl, hn⟩ := List.eq_append_cons_of_mem hm
          have hl : ('\x7b' :: rest).length < (c :: (before ++ '\x7b' :: rest)).length := by
            simp only [List.length_cons, List.length_append]
            omega
          obtain ⟨tokens, h⟩ := ih ('\x7b' :: rest) hl
          have ht := lexes_text (List.cons_ne_nil c before) (by simpa [hn] using Ne.symm hc)
            (fun d more hd => (List.cons.inj hd).1.symm) h
          exact ⟨_, ht⟩
        · have ht := lexes_text (List.cons_ne_nil c s) (by simpa [hm] using Ne.symm hc)
            (fun d more hd => by cases hd) .nil
          exact ⟨_, by simpa using ht⟩

/-- Scanning is lossless and exact: its result is the only way to take the template apart, its
placeholders are the leftmost matches, and the lexer with merging reads the same. -/
theorem scan_exact (template : Text) :
    ∃ pieces, Decomposes template pieces ∧ scan template = pieces.map Piece.segment ∧
      (∀ others, Decomposes template others → others = pieces) ∧
      (∀ found, Leftmost template 0 found ↔ found = spans 0 pieces) ∧
      (∃ tokens, Lexes template tokens) ∧
      ∀ tokens, Lexes template tokens → scan template =
        (tokens.map fun (k, lexeme) => k.segment lexeme).foldl
          (fun done a => join done [a]) [] := by
  obtain ⟨pieces, hs, hu⟩ := exists_pieces template
  have hd : Decomposes template pieces := (hu pieces).mpr rfl
  refine ⟨pieces, hd, hs, fun others => (hu others).mp, fun found => leftmost_iff rfl hd,
    exists_lexes template, ?_⟩
  intro tokens h
  rw [foldl_join, scan_of_lexes h]

end ComponentCompiler.Template
