import ComponentCompiler.Proofs.SectionLayout

/-! A section is found by two searches for a mark. A search that backtracks, trying every position
and every length of the body in turn, finds the same. -/

namespace ComponentCompiler

namespace Text

structure FirstAt (mark s : Text) (n : Nat) : Prop where
  here : mark <+: s.drop n
  before : ∀ m < n, ¬ mark <+: s.drop m

lemma cut?_eq_some_iff_firstAt {mark s before rest : Text} :
    cut? mark s = some (before, rest) ↔
      s = before ++ mark ++ rest ∧ FirstAt mark s before.length := by
  rw [cut?_eq_some_iff]
  refine and_congr_right ?_
  rintro rfl
  constructor
  · intro hmin
    refine ⟨by simp, ?_⟩
    rintro m hm ⟨r, hr⟩
    have hl := hmin ((before ++ mark ++ rest).take m) r (by
      rw [List.append_assoc _ mark r, hr, List.take_append_drop])
    have hle := List.length_take_le m (before ++ mark ++ rest)
    omega
  · intro h b r he
    by_contra hl
    apply h.before b.length (by omega)
    rw [he]
    simp

lemma cut?_append_right {mark s before rest : Text} (h : cut? mark s = some (before, rest))
    (more : Text) : cut? mark (s ++ more) = some (before, rest ++ more) := by
  obtain ⟨hs, hmin⟩ := cut?_eq_some_iff.mp h
  refine cut?_eq_some_iff.mpr ⟨by rw [hs, List.append_assoc], ?_⟩
  intro b r he
  by_contra hl
  have hlen : (b ++ mark).length ≤ s.length := by
    rw [hs]
    simp only [List.length_append]
    omega
  have hprefix : b ++ mark <+: s ++ more := ⟨r, he.symm⟩
  obtain ⟨r', hr'⟩ := List.prefix_of_prefix_length_le hprefix (List.prefix_append s more) hlen
  exact hl (hmin b r' hr'.symm)

def upTo? (mark : Text) : Text → Option Text
  -- The mark is tried first, so the text before it is as short as it can be.
  | [] => if mark <+: [] then some [] else none
  | c :: s => if mark <+: c :: s then some [] else (upTo? mark s).map (c :: ·)

lemma after?_eq_ite (mark s : Text) :
    after? mark s = if mark <+: s then some (s.drop mark.length) else none := by
  split
  · next h =>
    obtain ⟨rest, rfl⟩ := h
    simp
  · next h =>
    rw [Option.eq_none_iff_forall_ne_some]
    intro rest hr
    exact h ⟨rest, (after?_eq_some_iff.mp hr).symm⟩

lemma upTo?_eq (mark s : Text) : upTo? mark s = (cut? mark s).map Prod.fst := by
  induction s with
  | nil =>
    rw [upTo?, cut?, after?_eq_ite]
    split <;> rfl
  | cons c s ih =>
    rw [upTo?, cut?, after?_eq_ite, ih]
    by_cases h : mark <+: c :: s
    · simp [h]
    · simp only [h, if_false, Option.map_map]
      rfl

end Text

namespace Section

open Text (FirstAt cut? upTo?)

def matchHere? (sec : Section) (s : Text) : Option Text :=
  if sec.opening <+: s then upTo? sec.closing (s.drop sec.opening.length) else none

/-- Tries each position in turn, also after an opening mark that no closing mark follows. -/
def search? (sec : Section) : Text → Option Text
  | [] => sec.matchHere? []
  | c :: s => (sec.matchHere? (c :: s)).or (sec.search? s)

lemma body?_eq_bind (sec : Section) (s : Text) :
    sec.body? s = (cut? sec.opening s).bind fun cut => upTo? sec.closing cut.2 := by
  simp only [Text.upTo?_eq]
  rw [body?]
  cases cut? sec.opening s with
  | none => rfl
  | some cut =>
    change (cut? sec.closing cut.2).bind _ = Option.map _ _
    cases cut? sec.closing cut.2 <;> rfl

lemma body?_of_begins {sec : Section} {s : Text} (h : sec.opening <+: s) :
    sec.body? s = upTo? sec.closing (s.drop sec.opening.length) := by
  obtain ⟨rest, rfl⟩ := h
  rw [body?_eq_bind, Text.cut?_append_self, Option.bind_some, List.drop_left]

lemma body?_of_not_begins {sec : Section} {c : Char} {s : Text} (h : ¬ sec.opening <+: c :: s) :
    sec.body? (c :: s) = sec.body? s := by
  rw [body?_eq_bind, body?_eq_bind, cut?, Text.after?_eq_ite, if_neg h]
  cases cut? sec.opening s <;> rfl

structure Encloses (sec : Section) (source before body after : Text) : Prop where
  text : source = before ++ sec.opening ++ body ++ sec.closing ++ after
  opening : FirstAt sec.opening source before.length
  closing : FirstAt sec.closing (body ++ sec.closing ++ after) body.length

lemma encloses_iff {sec : Section} {source before body after : Text} :
    sec.Encloses source before body after ↔
      cut? sec.opening source = some (before, body ++ sec.closing ++ after) ∧
        cut? sec.closing (body ++ sec.closing ++ after) = some (body, after) := by
  rw [Text.cut?_eq_some_iff_firstAt, Text.cut?_eq_some_iff_firstAt]
  constructor
  · rintro ⟨htext, hopen, hclose⟩
    exact ⟨⟨by simpa using htext, hopen⟩, rfl, hclose⟩
  · rintro ⟨⟨htext, hopen⟩, -, hclose⟩
    exact ⟨by simpa using htext, hopen, hclose⟩

lemma body?_eq_some_iff {sec : Section} {source body : Text} :
    sec.body? source = some body ↔ ∃ before after, sec.Encloses source before body after := by
  simp only [encloses_iff, body?_eq_bind, Option.bind_eq_some_iff, Text.upTo?_eq,
    Option.map_eq_some_iff]
  constructor
  · rintro ⟨⟨before, rest⟩, hopen, ⟨body, after⟩, hclose, rfl⟩
    obtain rfl := Text.eq_of_cut? hclose
    exact ⟨before, after, hopen, hclose⟩
  · rintro ⟨before, after, hopen, hclose⟩
    exact ⟨(before, _), hopen, (body, after), hclose, rfl⟩

lemma body?_eq_none_iff {sec : Section} {source : Text} :
    sec.body? source = none ↔ ¬ sec.opening <:+: source ∨
      ∃ before rest, source = before ++ sec.opening ++ rest ∧
        FirstAt sec.opening source before.length ∧ ¬ sec.closing <:+: rest := by
  simp only [← Text.cut?_eq_none_iff_not_infix, ← and_assoc, ← Text.cut?_eq_some_iff_firstAt,
    body?_eq_bind, Option.bind_eq_none_iff, Text.upTo?_eq, Option.map_eq_none_iff]
  cases cut? sec.opening source with
  | none => simp
  | some cut =>
    obtain ⟨before, rest⟩ := cut
    simp

lemma closing_infix_of_body? {sec : Section} {c : Char} {s rest body : Text}
    (hs : c :: s = sec.opening ++ rest) (h : sec.body? s = some body) : sec.closing <:+: rest := by
  obtain ⟨before, after, htext, -, -⟩ := body?_eq_some_iff.mp h
  have hlater : (c :: before ++ sec.opening ++ body) ++ (sec.closing ++ after) =
      sec.opening ++ rest := by
    rw [← hs, htext]
    simp
  obtain ⟨middle, -, rfl⟩ : ∃ middle, c :: before ++ sec.opening ++ body = sec.opening ++ middle ∧
      rest = middle ++ (sec.closing ++ after) := by
    rcases List.append_eq_append_iff.mp hlater with ⟨more, hopen, hrest⟩ | h
    · have hlen := congrArg List.length hopen
      simp only [List.length_append, List.length_cons] at hlen
      omega
    · exact h
  exact ⟨middle, after, by simp⟩

theorem body?_eq_search? (sec : Section) (source : Text) :
    sec.body? source = sec.search? source := by
  induction source with
  | nil => cases sec <;> decide
  | cons c s ih =>
    rw [search?, matchHere?, ← ih]
    by_cases hopen : sec.opening <+: c :: s
    · rw [if_pos hopen, body?_of_begins hopen]
      cases hbody : upTo? sec.closing ((c :: s).drop sec.opening.length) with
      | some body => rfl
      | none =>
        -- No closing mark follows here, so a later opening mark has none after it either.
        rw [Option.none_or, eq_comm, Option.eq_none_iff_forall_ne_some]
        intro body hlater
        obtain ⟨rest, hrest⟩ := hopen
        rw [← hrest, List.drop_left, Text.upTo?_eq, Option.map_eq_none_iff,
          Text.cut?_eq_none_iff_not_infix] at hbody
        exact hbody (closing_infix_of_body? hrest.symm hlater)
    · rw [if_neg hopen, Option.none_or, body?_of_not_begins hopen]

lemma body?_append {sec : Section} {source body : Text} (h : sec.body? source = some body)
    (more : Text) : sec.body? (source ++ more) = some body := by
  obtain ⟨before, after, he⟩ := body?_eq_some_iff.mp h
  obtain ⟨hopen, hclose⟩ := encloses_iff.mp he
  have hopen' := Text.cut?_append_right hopen more
  have hclose' := Text.cut?_append_right hclose more
  rw [body?_eq_bind, hopen', Option.bind_some, Text.upTo?_eq, hclose']
  rfl

lemma body?_skip {sec : Section} {before : Text} (h : ¬ sec.opening <:+: before) (rest : Text) :
    sec.body? (before ++ (sec.opening ++ rest)) = sec.body? (sec.opening ++ rest) := by
  rw [body?_eq_bind, body?_eq_bind,
    Text.cut?_append_of_seam sec.isTag_opening (sec.seam_opening before rest) h]
  cases cut? sec.opening (sec.opening ++ rest) <;> rfl

lemma closing_not_infix_append {sec : Section} {body body' : Text} (h : ¬ sec.closing <:+: body)
    (h' : ¬ sec.closing <:+: body') : ¬ sec.closing <:+: body ++ (sec.opening ++ body') := by
  apply Text.not_infix_append_of_seam sec.isTag_closing (sec.seam_opening body body') h
  apply Text.not_infix_append_of_seam sec.isTag_closing _ _ h'
  · exact Or.inl (by cases sec <;> rfl)
  · intro hinfix
    exact opening_ne_closing sec sec
      (Text.eq_of_infix_isTag sec.isTag_closing sec.isTag_opening hinfix).symm

lemma body?_block {sec : Section} {body : Text} (h : ¬ sec.closing <:+: body) (after : Text) :
    sec.body? (sec.opening ++ (body ++ (sec.closing ++ after))) = some body := by
  rw [body?_of_begins (List.prefix_append _ _), List.drop_left, Text.upTo?_eq,
    Text.cut?_append_of_seam sec.isTag_closing (sec.seam_closing body after) h,
    Text.cut?_append_self]
  simp

/-- The body of a section is what the backtracking search finds, and that is what stands between the
first opening mark and the first closing mark after it. So text before the first opening mark does
not matter, opening marks in the body belong to it, and text that follows changes nothing. -/
theorem body_exact (sec : Section) (source : Text) :
    sec.body? source = sec.search? source ∧
      (∀ body, sec.body? source = some body ↔
        ∃ before after, sec.Encloses source before body after) ∧
      (sec.body? source = none ↔ ¬ sec.opening <:+: source ∨
        ∃ before rest, source = before ++ sec.opening ++ rest ∧
          FirstAt sec.opening source before.length ∧ ¬ sec.closing <:+: rest) ∧
      sec.body source = (sec.search? source).getD [] ∧
      (∀ before, ¬ sec.opening <:+: before →
        sec.body? (before ++ (sec.opening ++ source)) = sec.body? (sec.opening ++ source)) ∧
      (∀ before body body', ¬ sec.opening <:+: before → ¬ sec.closing <:+: body →
        ¬ sec.closing <:+: body' →
          sec.body? (before ++ (sec.opening ++ (body ++ (sec.opening ++ body') ++
            (sec.closing ++ source)))) = some (body ++ (sec.opening ++ body'))) ∧
      ∀ body, sec.body? source = some body → ∀ more, sec.body? (source ++ more) = some body := by
  refine ⟨sec.body?_eq_search? source, fun body => body?_eq_some_iff, body?_eq_none_iff,
    by rw [Section.body, body?_eq_search?], fun before h => body?_skip h source, ?_,
    fun body => body?_append⟩
  intro before body body' hbefore hbody hbody'
  rw [body?_skip hbefore]
  exact body?_block (closing_not_infix_append hbody hbody') source

example : Section.style.body? "</style><style>a<style>b</style>c</style>".toList =
    some "a<style>b".toList := by decide

end Section

end ComponentCompiler
