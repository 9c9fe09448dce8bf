import ComponentCompiler.Proofs.PropDependence
import ComponentCompiler.Proofs.TemplateLexing

/-! A template in two parts. The parts can be scanned and rendered one by one just if the first one
leaves no brace open. -/

namespace ComponentCompiler.Template

def Closed (template : Text) : Prop :=
  ∀ before after, template = before ++ '\x7b' :: after → '\x7d' ∈ after

lemma closed_nil : Closed [] := by
  intro before after he
  simp at he

lemma closed_cons_iff {c : Char} {s : Text} :
    Closed (c :: s) ↔ (c = '\x7b' → '\x7d' ∈ s) ∧ Closed s := by
  constructor
  · intro h
    refine ⟨?_, ?_⟩
    · rintro rfl
      exact h [] s rfl
    · intro before after he
      exact h (c :: before) after (by rw [he]; rfl)
  · rintro ⟨hc, hs⟩ before after he
    cases before with
    | nil =>
      obtain ⟨rfl, rfl⟩ := List.cons.inj he
      exact hc rfl
    | cons d before => exact hs before after (List.cons.inj he).2

lemma closed_append_closing_iff {s rest : Text} : Closed (s ++ '\x7d' :: rest) ↔ Closed rest := by
  induction s with
  | nil => simp [closed_cons_iff]
  | cons c s ih => simp [closed_cons_iff, ih]

lemma inert_append_iff {s : Text} (h : '\x7d' ∈ s) (more : Text) : Inert (s ++ more) ↔ Inert s := by
  have hne : s ≠ [] := List.ne_nil_of_mem h
  simp [Inert, h, List.head?_append_of_ne_nil s hne]

lemma hole_append (body rest more : Text) : '\x7b' :: body ++ '\x7d' :: rest ++ more =
    '\x7b' :: body ++ '\x7d' :: (rest ++ more) := by
  simp

theorem scan_append {template : Text} (h : Closed template) (more : Text) :
    scan (template ++ more) = join (scan template) (scan more) := by
  induction template using scan_induction with
  | nil =>
    rw [scan]
    rfl
  | hole body rest hne hb ih =>
    rw [hole_append, scan_hole hne hb, scan_hole hne hb, ih (closed_append_closing_iff.mp h)]
    exact (join_attach (.hole (.ofBody body)) (scan rest) (scan more)).symm
  | char c s hc ih =>
    obtain ⟨hbrace, hs⟩ := closed_cons_iff.mp h
    have hc' : c = '\x7b' → Inert (s ++ more) :=
      fun he => (inert_append_iff (hbrace he) more).mpr (hc he)
    rw [List.cons_append, scan_char hc', scan_char hc, ih hs, pushChar_eq_attach,
      pushChar_eq_attach, join_attach]

section

variable {β : Type} {f : Segment → List β}

lemma flatMap_attach (hf : ∀ s s', f (.literal (s ++ s')) = f (.literal s) ++ f (.literal s'))
    (a : Segment) (right : List Segment) :
    (attach a right).flatMap f = f a ++ right.flatMap f := by
  cases a with
  | hole p => rfl
  | literal s =>
    cases right with
    | nil => rfl
    | cons b right =>
      cases b with
      | hole p => rfl
      | literal s' => simp [attach, hf]

lemma flatMap_join (hf : ∀ s s', f (.literal (s ++ s')) = f (.literal s) ++ f (.literal s'))
    (left right : List Segment) :
    (join left right).flatMap f = left.flatMap f ++ right.flatMap f := by
  induction left with
  | nil => rfl
  | cons a left ih =>
    cases left with
    | nil =>
      rw [join, flatMap_attach hf]
      simp
    | cons b left =>
      rw [join_cons (List.cons_ne_nil b left), List.flatMap_cons, ih, ← List.append_assoc,
        ← List.flatMap_cons]

end

lemma render_append {template : Text} (h : Closed template) (more : Text) (props : Props) :
    render (template ++ more) props = render template props ++ render more props := by
  rw [render, scan_append h]
  exact flatMap_join (fun _ _ => rfl) (scan template) (scan more)

lemma propNames_eq_flatMap (template : Text) : propNames template =
    (scan template).flatMap fun a => (a.placeholder?.map Placeholder.name).toList := by
  rw [propNames, placeholders, List.map_filterMap, List.filterMap_eq_flatMap_toList]

lemma propNames_append {template : Text} (h : Closed template) (more : Text) :
    propNames (template ++ more) = propNames template ++ propNames more := by
  simp only [propNames_eq_flatMap, scan_append h]
  exact flatMap_join (fun _ _ => rfl) (scan template) (scan more)

lemma render_hole {body : Text} (hne : body ≠ []) (hb : '\x7d' ∉ body) (rest : Text)
    (props : Props) : render ('\x7b' :: body ++ '\x7d' :: rest) props =
      (Placeholder.ofBody body).resolve props ++ render rest props := by
  rw [render, scan_hole hne hb]
  rfl

lemma propNames_nil : propNames [] = [] := by
  rw [propNames, placeholders, scan]
  rfl

lemma propNames_hole {body : Text} (hne : body ≠ []) (hb : '\x7d' ∉ body) (rest : Text) :
    propNames ('\x7b' :: body ++ '\x7d' :: rest) =
      (Placeholder.ofBody body).name :: propNames rest := by
  rw [propNames, placeholders, scan_hole hne hb]
  rfl

lemma propNames_char {c : Char} {s : Text} (hc : c = '\x7b' → Inert s) :
    propNames (c :: s) = propNames s := by
  rw [propNames_eq_flatMap, scan_char hc, pushChar_eq_attach, flatMap_attach fun _ _ => rfl,
    propNames_eq_flatMap]
  rfl

lemma propNames_of_notMem {s : Text} (h : '\x7d' ∉ s) : propNames s = [] := by
  induction s with
  | nil => exact propNames_nil
  | cons c s ih =>
    have hs : '\x7d' ∉ s := fun hm => h (List.mem_cons_of_mem c hm)
    rw [propNames_char (fun _ => Or.inr hs), ih hs]

lemma propNames_append_of_not_closed {template : Text} (h : ¬ Closed template) :
    ∃ name, propNames (template ++ ['x', '\x7d']) = propNames template ++ [name] := by
  induction template using scan_induction with
  | nil => exact (h closed_nil).elim
  | hole body rest hne hb ih =>
    obtain ⟨name, hname⟩ := ih (mt closed_append_closing_iff.mpr h)
    refine ⟨name, ?_⟩
    rw [hole_append, propNames_hole hne hb, propNames_hole hne hb, hname]
    rfl
  | char c s hc ih =>
    by_cases hopen : c = '\x7b' ∧ '\x7d' ∉ s
    · -- The brace is open, so the text up to the closing brace becomes a placeholder.
      obtain ⟨rfl, hs⟩ := hopen
      have hnone : propNames ('\x7b' :: s) = [] := propNames_of_notMem (by simpa using hs)
      have hhole : propNames ('\x7b' :: (s ++ ['x']) ++ ['\x7d']) =
          [(Placeholder.ofBody (s ++ ['x'])).name] := by
        rw [propNames_hole (by simp) (by simpa using hs), propNames_nil]
      refine ⟨(Placeholder.ofBody (s ++ ['x'])).name, ?_⟩
      rw [hnone]
      simpa using hhole
    · have hbrace : c = '\x7b' → '\x7d' ∈ s := fun he => by_contra fun hs => hopen ⟨he, hs⟩
      obtain ⟨name, hname⟩ := ih fun hs => h (closed_cons_iff.mpr ⟨hbrace, hs⟩)
      refine ⟨name, ?_⟩
      rw [List.cons_append, propNames_char hc, propNames_char, hname]
      exact fun he => (inert_append_iff (hbrace he) _).mpr (hc he)

/-- The first part of a template is scanned and rendered on its own, whatever follows, just if each
of its opening braces has a closing brace after it. A value stands in the rendering as it is, with
the braces that it has. -/
theorem closed_iff_compositional (template : Text) :
    Closed template ↔ ∀ more : Text,
      scan (template ++ more) = join (scan template) (scan more) ∧
      propNames (template ++ more) = propNames template ++ propNames more ∧
      ∀ props : Props,
        render (template ++ more) props = render template props ++ render more props ∧
        ∀ (body : Text) (v : Value), body ≠ [] → '\x7d' ∉ body →
          props.find? (Placeholder.ofBody body).name = some v → v ≠ .null → v.toText ≠ [] →
          render (template ++ ('\x7b' :: body ++ '\x7d' :: more)) props =
            render template props ++ (v.toText ++ render more props) := by
  constructor
  · intro h more
    refine ⟨scan_append h more, propNames_append h more, ?_⟩
    intro props
    refine ⟨render_append h more props, ?_⟩
    intro body v hne hb hfind hnull htext
    rw [render_append h, render_hole hne hb, Placeholder.resolve_of_find? hfind hnull htext]
  · intro h
    by_contra hc
    obtain ⟨name, hname⟩ := propNames_append_of_not_closed hc
    have hsplit := (h ['x', '\x7d']).2.1
    have hmore : propNames ['x', '\x7d'] = [] := by
      rw [propNames_char (fun he => absurd he (by decide)),
        propNames_char (fun he => absurd he (by decide)), propNames_nil]
    rw [hname, hmore] at hsplit
    simp at hsplit

example : render "\x7ba\x7d\x7bb\x7d".toList
    [("a".toList, .text "\x7bb\x7d".toList), ("b".toList, .text "c".toList)] =
      "\x7bb\x7dc".toList := by decide +kernel

end ComponentCompiler.Template
