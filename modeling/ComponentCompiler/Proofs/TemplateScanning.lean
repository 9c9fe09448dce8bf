import ComponentCompiler.Proofs.Searching
import ComponentCompiler.Template.Basic

/-! Scanning takes a template apart without loss, in the only way in which its placeholders can be
found from left to right. -/

namespace ComponentCompiler.Template

def Inert (rest : Text) : Prop :=
  rest.head? = some '\x7d' ∨ '\x7d' ∉ rest

lemma body?_eq_some_iff {s body rest : Text} :
    body? s = some (body, rest) ↔ s = body ++ '\x7d' :: rest ∧ body ≠ [] ∧ '\x7d' ∉ body := by
  rw [body?]
  constructor
  · intro h
    split at h
    · next hc =>
      obtain ⟨rfl, rfl⟩ := Prod.mk.inj (Option.some.inj h)
      obtain ⟨hs, hn⟩ := Text.cut?_singleton_eq_some_iff.mp hc
      exact ⟨hs, by simp, hn⟩
    · cases h
  · rintro ⟨hs, hne, hn⟩
    obtain ⟨c, body, rfl⟩ := List.exists_cons_of_ne_nil hne
    rw [Text.cut?_singleton_eq_some_iff.mpr ⟨hs, hn⟩]

lemma body_unique {body body' rest rest' : Text} (hb : '\x7d' ∉ body) (hb' : '\x7d' ∉ body')
    (h : body ++ '\x7d' :: rest = body' ++ '\x7d' :: rest') : body = body' ∧ rest = rest' := by
  have hcut : Text.cut? ['\x7d'] (body ++ '\x7d' :: rest) = some (body, rest) :=
    Text.cut?_singleton_eq_some_iff.mpr ⟨rfl, hb⟩
  have hcut' := Text.cut?_singleton_eq_some_iff.mpr ⟨h, hb'⟩
  exact Prod.mk.inj (Option.some.inj (hcut.symm.trans hcut'))

lemma body?_eq_none_iff {s : Text} : body? s = none ↔ Inert s := by
  rw [Option.eq_none_iff_forall_ne_some]
  constructor
  · intro h
    by_cases hm : '\x7d' ∈ s
    · obtain ⟨body, rest, rfl, hn⟩ := List.eq_append_cons_of_mem hm
      cases body with
      | nil => exact Or.inl rfl
      | cons c body => exact (h (c :: body, rest) (body?_eq_some_iff.mpr ⟨rfl, by simp, hn⟩)).elim
    · exact Or.inr hm
  · rintro h ⟨body, rest⟩ hb
    obtain ⟨rfl, hne, hn⟩ := body?_eq_some_iff.mp hb
    obtain ⟨c, body, rfl⟩ := List.exists_cons_of_ne_nil hne
    rcases h with h | h
    · simp_all
    · simp at h

lemma scan_hole {body : Text} (hne : body ≠ []) (hb : '\x7d' ∉ body) (rest : Text) :
    scan ('\x7b' :: body ++ '\x7d' :: rest) = .hole (.ofBody body) :: scan rest := by
  have h : body? (body ++ '\x7d' :: rest) = some (body, rest) :=
    body?_eq_some_iff.mpr ⟨rfl, hne, hb⟩
  rw [List.cons_append, scan, if_pos rfl]
  split
  · next hs =>
    obtain ⟨rfl, rfl⟩ := Prod.mk.inj (Option.some.inj (h.symm.trans hs))
    rfl
  · next hs => cases h.symm.trans hs

lemma scan_char {c : Char} {s : Text} (h : c = '\x7b' → Inert s) :
    scan (c :: s) = pushChar c (scan s) := by
  rw [scan]
  split
  · next hc =>
    have hn := body?_eq_none_iff.mpr (h hc)
    split
    · next hs => cases hn.symm.trans hs
    · rfl
  · rfl

theorem scan_induction {motive : Text → Prop} (nil : motive [])
    (hole : ∀ body rest, body ≠ [] → '\x7d' ∉ body → motive rest →
      motive ('\x7b' :: body ++ '\x7d' :: rest))
    (char : ∀ c s, (c = '\x7b' → Inert s) → motive s → motive (c :: s))
    (template : Text) : motive template := by
  induction template using (measure List.length).wf.induction with
  | h template ih =>
    cases template with
    | nil => exact nil
    | cons c s =>
      cases hb : body? s with
      | none => exact char c s (fun _ => body?_eq_none_iff.mp hb) (ih s (Nat.lt_succ_self _))
      | some p =>
        obtain ⟨body, rest⟩ := p
        by_cases hc : c = '\x7b'
        · have hl : rest.length < (c :: s).length := Nat.lt_succ_of_lt (length_of_body? hb)
          obtain ⟨rfl, hne, hn⟩ := body?_eq_some_iff.mp hb
          subst hc
          exact hole body rest hne hn (ih rest hl)
        · exact char c s (fun h => (hc h).elim) (ih s (Nat.lt_succ_self _))

inductive Piece where
  | text (raw : Text)
  | hole (body : Text)
  deriving DecidableEq, Repr

def Piece.raw : Piece → Text
  | .text s => s
  | .hole body => '\x7b' :: body ++ ['\x7d']

def Piece.segment : Piece → Segment
  | .text s => .literal s
  | .hole body => .hole (.ofBody body)

structure Decomposes (template : Text) (pieces : List Piece) : Prop where
  raw : pieces.flatMap Piece.raw = template
  text : ∀ s, .text s ∈ pieces → s ≠ []
  hole : ∀ body, .hole body ∈ pieces → body ≠ [] ∧ '\x7d' ∉ body
  apart : ∀ before s s' after, pieces ≠ before ++ .text s :: .text s' :: after
  brace : ∀ before s s' after, pieces = before ++ .text (s ++ '\x7b' :: s') :: after →
    Inert (s' ++ after.flatMap Piece.raw)

lemma Decomposes.tail {template : Text} {p : Piece} {pieces : List Piece}
    (h : Decomposes template (p :: pieces)) : Decomposes (pieces.flatMap Piece.raw) pieces where
  raw := rfl
  text s hs := h.text s (List.mem_cons_of_mem _ hs)
  hole body hb := h.hole body (List.mem_cons_of_mem _ hb)
  apart before s s' after he := h.apart (p :: before) s s' after (by rw [he]; rfl)
  brace before s s' after he := h.brace (p :: before) s s' after (by rw [he]; rfl)

lemma Decomposes.cons_hole {body rest : Text} {pieces : List Piece} (hne : body ≠ [])
    (hb : '\x7d' ∉ body) (h : Decomposes rest pieces) :
    Decomposes ('\x7b' :: body ++ '\x7d' :: rest) (.hole body :: pieces) where
  raw := by simp [Piece.raw, h.raw]
  text s hs := h.text s (by simpa using hs)
  hole b hm := by
    rcases List.mem_cons.mp hm with he | hm
    · obtain rfl := Piece.hole.inj he
      exact ⟨hne, hb⟩
    · exact h.hole b hm
  apart before s s' after he := by
    cases before with
    | nil => simp at he
    | cons p before => exact h.apart before s s' after (List.cons.inj he).2
  brace before s s' after he := by
    cases before with
    | nil => simp at he
    | cons p before => exact h.brace before s s' after (List.cons.inj he).2

lemma Decomposes.cons_text {s template : Text} {pieces : List Piece} (hne : s ≠ [])
    (hp : ∀ s' after, pieces ≠ .text s' :: after)
    (hs : ∀ s₁ s₂, s = s₁ ++ '\x7b' :: s₂ → Inert (s₂ ++ template))
    (h : Decomposes template pieces) : Decomposes (s ++ template) (.text s :: pieces) where
  raw := by simp [Piece.raw, h.raw]
  text s' hs' := by
    rcases List.mem_cons.mp hs' with he | hm
    · obtain rfl := Piece.text.inj he
      exact hne
    · exact h.text s' hm
  hole b hm := h.hole b (by simpa using hm)
  apart before s₁ s₂ after he := by
    cases before with
    | nil => exact hp s₂ after (List.cons.inj he).2
    | cons p before => exact h.apart before s₁ s₂ after (List.cons.inj he).2
  brace before s₁ s₂ after he := by
    cases before with
    | nil =>
      obtain ⟨hhead, rfl⟩ := List.cons.inj he
      rw [h.raw]
      exact hs s₁ s₂ (Piece.text.inj hhead)
    | cons p before => exact h.brace before s₁ s₂ after (List.cons.inj he).2

def Piece.push (c : Char) : List Piece → List Piece
  | .text s :: rest => .text (c :: s) :: rest
  | pieces => .text [c] :: pieces

lemma Piece.push_of_ne {pieces : List Piece} (h : ∀ s after, pieces ≠ .text s :: after) (c : Char) :
    Piece.push c pieces = .text [c] :: pieces := by
  cases pieces with
  | nil => rfl
  | cons p pieces =>
    cases p with
    | text s => exact (h s pieces rfl).elim
    | hole body => rfl

lemma decomposes_nil_iff {pieces : List Piece} : Decomposes [] pieces ↔ pieces = [] := by
  constructor
  · intro h
    cases pieces with
    | nil => rfl
    | cons p pieces =>
      have hr := (List.append_eq_nil_iff.mp h.raw).1
      cases p with
      | text s => exact (h.text s List.mem_cons_self hr).elim
      | hole body => simp [Piece.raw] at hr
  · rintro rfl
    exact ⟨rfl, by simp, by simp, by simp, by simp⟩

lemma not_inert {body : Text} (hne : body ≠ []) (hb : '\x7d' ∉ body) (rest : Text) :
    ¬ Inert (body ++ '\x7d' :: rest) := by
  intro h
  have hs : body? (body ++ '\x7d' :: rest) = some (body, rest) :=
    body?_eq_some_iff.mpr ⟨rfl, hne, hb⟩
  cases (body?_eq_none_iff.mpr h).symm.trans hs

lemma decomposes_hole_iff {body rest : Text} {pieces : List Piece} (hne : body ≠ [])
    (hb : '\x7d' ∉ body) :
    Decomposes ('\x7b' :: body ++ '\x7d' :: rest) pieces ↔
      ∃ more, pieces = .hole body :: more ∧ Decomposes rest more := by
  constructor
  · intro h
    have hraw := h.raw
    cases pieces with
    | nil => simp at hraw
    | cons p more =>
      cases p with
      | text s =>
        obtain ⟨c, s, rfl⟩ := List.exists_cons_of_ne_nil (h.text s List.mem_cons_self)
        obtain ⟨rfl, hs⟩ := List.cons.inj hraw
        have hi := h.brace [] [] s more rfl
        rw [show s ++ more.flatMap Piece.raw = body ++ '\x7d' :: rest from hs] at hi
        exact (not_inert hne hb rest hi).elim
      | hole b =>
        have hs : body ++ '\x7d' :: rest = b ++ '\x7d' :: more.flatMap Piece.raw := by
          simpa [Piece.raw] using hraw.symm
        obtain ⟨rfl, rfl⟩ := body_unique hb (h.hole b List.mem_cons_self).2 hs
        exact ⟨more, rfl, h.tail⟩
  · rintro ⟨more, rfl, h⟩
    exact h.cons_hole hne hb

lemma Decomposes.push {c : Char} {s : Text} {pieces : List Piece} (hc : c = '\x7b' → Inert s)
    (h : Decomposes s pieces) : Decomposes (c :: s) (Piece.push c pieces) := by
  by_cases hp : ∃ s₀ after, pieces = .text s₀ :: after
  · obtain ⟨s₀, after, rfl⟩ := hp
    obtain rfl : s₀ ++ after.flatMap Piece.raw = s := h.raw
    refine h.tail.cons_text (List.cons_ne_nil c s₀) ?_ ?_
    · rintro s' more rfl
      exact h.apart [] s₀ s' more rfl
    · intro s₁ s₂ he
      cases s₁ with
      | nil =>
        obtain ⟨rfl, rfl⟩ := List.cons.inj he
        exact hc rfl
      | cons d s₁ =>
        obtain ⟨rfl, rfl⟩ := List.cons.inj he
        exact h.brace [] s₁ s₂ after rfl
  · have hne : ∀ s' after, pieces ≠ .text s' :: after := fun s' after he => hp ⟨s', after, he⟩
    rw [Piece.push_of_ne hne]
    refine h.cons_text (List.cons_ne_nil c []) hne ?_
    intro s₁ s₂ he
    obtain ⟨rfl, he⟩ | ⟨s₁', rfl, he⟩ := List.cons_eq_append_iff.mp he
    · obtain ⟨rfl, rfl⟩ := List.cons.inj he
      exact hc rfl
    · simp at he

lemma decomposes_char_iff {c : Char} {s : Text} {pieces : List Piece} (hc : c = '\x7b' → Inert s) :
    Decomposes (c :: s) pieces ↔ ∃ more, pieces = Piece.push c more ∧ Decomposes s more := by
  constructor
  · intro h
    have hraw := h.raw
    cases pieces with
    | nil => simp at hraw
    | cons p more =>
      cases p with
      | text s₀ =>
        obtain ⟨d, s₀, rfl⟩ := List.exists_cons_of_ne_nil (h.text s₀ List.mem_cons_self)
        obtain ⟨rfl, rfl⟩ := List.cons.inj hraw
        have hmore : ∀ s' after, more ≠ .text s' :: after := by
          rintro s' after rfl
          exact h.apart [] _ s' after rfl
        cases s₀ with
        | nil => exact ⟨more, (Piece.push_of_ne hmore d).symm, h.tail⟩
        | cons e s₀ =>
          refine ⟨.text (e :: s₀) :: more, rfl, ?_⟩
          refine h.tail.cons_text (List.cons_ne_nil e s₀) hmore ?_
          intro s₁ s₂ he
          exact h.brace [] (d :: s₁) s₂ more (by rw [he]; rfl)
      | hole body =>
        obtain ⟨hne, hb⟩ := h.hole body List.mem_cons_self
        obtain ⟨rfl, rfl⟩ : '\x7b' = c ∧ body ++ '\x7d' :: more.flatMap Piece.raw = s := by
          simpa [Piece.raw] using hraw
        exact (not_inert hne hb _ (hc rfl)).elim
  · rintro ⟨more, rfl, h⟩
    exact h.push hc

lemma map_segment_push (c : Char) (pieces : List Piece) :
    (Piece.push c pieces).map Piece.segment = pushChar c (pieces.map Piece.segment) := by
  cases pieces with
  | nil => rfl
  | cons p pieces => cases p <;> rfl

theorem exists_pieces (template : Text) :
    ∃ pieces, scan template = pieces.map Piece.segment ∧
      ∀ others, Decomposes template others ↔ others = pieces := by
  induction template using scan_induction with
  | nil => exact ⟨[], by rw [scan]; rfl, fun _ => decomposes_nil_iff⟩
  | hole body rest hne hb ih =>
    obtain ⟨pieces, hs, hu⟩ := ih
    refine ⟨.hole body :: pieces, by rw [scan_hole hne hb, hs]; rfl, fun others => ?_⟩
    simp only [decomposes_hole_iff hne hb, hu, exists_eq_right]
  | char c s hc ih =>
    obtain ⟨pieces, hs, hu⟩ := ih
    refine ⟨Piece.push c pieces, by rw [scan_char hc, hs, map_segment_push], fun others => ?_⟩
    simp only [decomposes_char_iff hc, hu, exists_eq_right]

def MatchesAt (template : Text) (i j : Nat) : Prop :=
  ∃ body rest, body ≠ [] ∧ '\x7d' ∉ body ∧
    template.drop i = '\x7b' :: body ++ '\x7d' :: rest ∧ j = i + body.length + 2

/-- The non-overlapping matches that a search from position `n` on meets, each the leftmost one. -/
inductive Leftmost (template : Text) : Nat → List (Nat × Nat) → Prop
  | none {n : Nat} (hnone : ∀ i j, n ≤ i → ¬ MatchesAt template i j) : Leftmost template n []
  | next {n i j : Nat} {found : List (Nat × Nat)} (hn : n ≤ i) (hm : MatchesAt template i j)
      (hfirst : ∀ i' j', n ≤ i' → i' < i → ¬ MatchesAt template i' j')
      (hrest : Leftmost template j found) : Leftmost template n ((i, j) :: found)

def spans (n : Nat) : List Piece → List (Nat × Nat)
  | [] => []
  | .text s :: pieces => spans (n + s.length) pieces
  | .hole body :: pieces =>
    (n, n + body.length + 2) :: spans (n + body.length + 2) pieces

lemma spans_push (n : Nat) (c : Char) (pieces : List Piece) :
    spans n (Piece.push c pieces) = spans (n + 1) pieces := by
  cases pieces with
  | nil => rfl
  | cons p pieces =>
    cases p with
    | text s =>
      simp only [Piece.push, spans, List.length_cons]
      rw [Nat.add_right_comm, Nat.add_assoc]
    | hole body => rfl

lemma matchesAt_hole_iff {template body rest : Text} {n j : Nat} (hne : body ≠ [])
    (hb : '\x7d' ∉ body) (hd : template.drop n = '\x7b' :: body ++ '\x7d' :: rest) :
    MatchesAt template n j ↔ j = n + body.length + 2 := by
  constructor
  · rintro ⟨body', rest', -, hb', hd', rfl⟩
    have hs : body ++ '\x7d' :: rest = body' ++ '\x7d' :: rest' := by
      simpa using hd.symm.trans hd'
    rw [(body_unique hb hb' hs).1]
  · rintro rfl
    exact ⟨body, rest, hne, hb, hd, rfl⟩

lemma not_matchesAt_char {template s : Text} {c : Char} {n : Nat} (hc : c = '\x7b' → Inert s)
    (hd : template.drop n = c :: s) (j : Nat) : ¬ MatchesAt template n j := by
  rintro ⟨body, rest, hne, hb, hd', -⟩
  obtain ⟨rfl, rfl⟩ := List.cons.inj (hd.symm.trans hd')
  exact not_inert hne hb rest (hc rfl)

lemma leftmost_nil_iff {template : Text} {n : Nat} {found : List (Nat × Nat)}
    (hd : template.drop n = []) : Leftmost template n found ↔ found = [] := by
  have hnone : ∀ i j, n ≤ i → ¬ MatchesAt template i j := by
    rintro i j hi ⟨body, rest, -, -, hd', -⟩
    have hl : template.length ≤ i := (List.drop_eq_nil_iff.mp hd).trans hi
    cases (List.drop_eq_nil_of_le hl).symm.trans hd'
  constructor
  · intro h
    cases h with
    | none => rfl
    | next hn hm => exact (hnone _ _ hn hm).elim
  · rintro rfl
    exact .none hnone

lemma leftmost_hole_iff {template body rest : Text} {n : Nat} {found : List (Nat × Nat)}
    (hne : body ≠ []) (hb : '\x7d' ∉ body)
    (hd : template.drop n = '\x7b' :: body ++ '\x7d' :: rest) :
    Leftmost template n found ↔ ∃ more, found = (n, n + body.length + 2) :: more ∧
      Leftmost template (n + body.length + 2) more := by
  have hmatch : MatchesAt template n (n + body.length + 2) := (matchesAt_hole_iff hne hb hd).mpr rfl
  constructor
  · intro h
    cases h with
    | none hnone => exact (hnone n _ le_rfl hmatch).elim
    | @next _ i j more hn hm hfirst hrest =>
      obtain rfl : n = i := by
        by_contra hni
        exact hfirst n _ le_rfl (lt_of_le_of_ne hn hni) hmatch
      obtain rfl := (matchesAt_hole_iff hne hb hd).mp hm
      exact ⟨more, rfl, hrest⟩
  · rintro ⟨more, rfl, hrest⟩
    exact .next le_rfl hmatch (fun i' _ h h' => (Nat.not_lt.mpr h h').elim) hrest

lemma leftmost_char_iff {template s : Text} {c : Char} {n : Nat} {found : List (Nat × Nat)}
    (hc : c = '\x7b' → Inert s) (hd : template.drop n = c :: s) :
    Leftmost template n found ↔ Leftmost template (n + 1) found := by
  have hn := not_matchesAt_char hc hd
  constructor
  · intro h
    cases h with
    | none hnone => exact .none fun i j hi => hnone i j (Nat.le_of_succ_le hi)
    | @next _ i j more hni hm hfirst hrest =>
      have hlt : n ≠ i := by
        rintro rfl
        exact hn j hm
      exact .next (lt_of_le_of_ne hni hlt) hm
        (fun i' j' hi => hfirst i' j' (Nat.le_of_succ_le hi)) hrest
  · intro h
    cases h with
    | none hnone =>
      refine .none fun i j hi => ?_
      rcases Nat.eq_or_lt_of_le hi with rfl | hlt
      · exact hn j
      · exact hnone i j hlt
    | next hni hm hfirst hrest =>
      refine .next (Nat.le_of_succ_le hni) hm (fun i' j' hi hi' => ?_) hrest
      rcases Nat.eq_or_lt_of_le hi with rfl | hlt
      · exact hn j'
      · exact hfirst i' j' hlt hi'

theorem leftmost_iff {template suffix : Text} {n : Nat} {pieces : List Piece}
    {found : List (Nat × Nat)} (hd : template.drop n = suffix) (h : Decomposes suffix pieces) :
    Leftmost template n found ↔ found = spans n pieces := by
  induction suffix using scan_induction generalizing n pieces found with
  | nil =>
    obtain rfl := decomposes_nil_iff.mp h
    exact leftmost_nil_iff hd
  | hole body rest hne hb ih =>
    obtain ⟨more, rfl, hmore⟩ := (decomposes_hole_iff hne hb).mp h
    have hrest : template.drop (n + body.length + 2) = rest := by
      rw [Nat.add_assoc, ← List.drop_drop, hd]
      simp
    simp only [leftmost_hole_iff hne hb hd, ih hrest hmore, exists_eq_right, spans]
  | char c s hc ih =>
    obtain ⟨more, rfl, hmore⟩ := (decomposes_char_iff hc).mp h
    have hrest : template.drop (n + 1) = s := by
      rw [← List.drop_drop, hd]
      rfl
    rw [leftmost_char_iff hc hd, spans_push]
    exact ih hrest hmore

end ComponentCompiler.Template
