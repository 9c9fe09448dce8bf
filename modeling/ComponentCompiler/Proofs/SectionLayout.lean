import ComponentCompiler.Artifact.Basic
import ComponentCompiler.Proofs.Searching

/-! The place of a section in its source does not matter: in whatever order the sections stand and
whatever text stands around them, each is found, as long as its marks occur nowhere else. -/

namespace ComponentCompiler

namespace Text

lemma cut?_eq_none_iff_not_infix {mark s : Text} : cut? mark s = none ↔ ¬ mark <:+: s := by
  rw [cut?_eq_none_iff]
  constructor
  · rintro h ⟨before, rest, rfl⟩
    exact h before rest rfl
  · rintro h before rest rfl
    exact h ⟨before, rest, rfl⟩

lemma cut?_append_self (mark rest : Text) : cut? mark (mark ++ rest) = some ([], rest) :=
  cut?_eq_some_iff.mpr ⟨rfl, fun _ _ _ => Nat.zero_le _⟩

lemma cut?_append_of_not_prefix {mark a b : Text}
    (h : ∀ x y, a = x ++ y → y ≠ [] → ¬ mark <+: y ++ b) :
    cut? mark (a ++ b) = (cut? mark b).map fun (before, rest) => (a ++ before, rest) := by
  induction a with
  | nil => simp
  | cons c a ih =>
    have hnone : after? mark (c :: (a ++ b)) = none := by
      rw [Option.eq_none_iff_forall_ne_some]
      intro rest hrest
      apply h [] (c :: a) rfl (List.cons_ne_nil c a)
      exact ⟨rest, (after?_eq_some_iff.mp hrest).symm⟩
    have htail : cut? mark (a ++ b) =
        (cut? mark b).map fun (before, rest) => (a ++ before, rest) := by
      apply ih
      rintro x y rfl
      exact h (c :: x) y rfl
    rw [List.cons_append, cut?, hnone]
    simp only [htail, Option.map_map]
    rfl

def IsTag (mark : Text) : Prop :=
  ∃ inner, mark = '<' :: inner ++ ['>'] ∧ '<' ∉ inner ∧ '>' ∉ inner

lemma eq_of_infix_isTag {mark other : Text} (hm : IsTag mark) (ho : IsTag other)
    (h : mark <:+: other) : mark = other := by
  obtain ⟨inner, rfl, -, -⟩ := hm
  obtain ⟨inner', rfl, hlt, hgt⟩ := ho
  obtain ⟨x, y, hxy⟩ := h
  obtain rfl : x = [] := by
    cases x with
    | nil => rfl
    | cons c x =>
      have htail : x ++ ('<' :: inner ++ ['>']) ++ y = inner' ++ ['>'] := (List.cons.inj hxy).2
      have hmem : '<' ∈ inner' ++ ['>'] := by
        rw [← htail]
        simp
      simp [hlt] at hmem
  obtain rfl : y = [] := by
    rcases List.eq_nil_or_concat y with rfl | ⟨y, c, rfl⟩
    · rfl
    · rw [List.concat_eq_append, ← List.append_assoc] at hxy
      have hmem : '>' ∈ '<' :: inner' := by
        rw [← (List.append_inj' hxy rfl).1]
        simp
      simp [hgt] at hmem
  simpa using hxy

def Seam (a b : Text) : Prop :=
  a.getLast? = some '>' ∨ b.head? = some '<'

lemma Seam.drop {x y b : Text} (h : Seam (x ++ y) b) (hy : y ≠ []) : Seam y b := by
  refine h.imp_left fun hl => ?_
  rwa [List.getLast?_append_of_ne_nil x hy] at hl

lemma prefix_of_seam {mark a b : Text} (hm : IsTag mark) (hs : Seam a b) (ha : a ≠ [])
    (h : mark <+: a ++ b) : mark <+: a := by
  obtain ⟨inner, rfl, hlt, hgt⟩ := hm
  obtain ⟨rest, hrest⟩ := h
  rcases List.append_eq_append_iff.mp hrest with ⟨a', ha', -⟩ | ⟨m, hmark, hb⟩
  · exact ⟨a', ha'.symm⟩
  -- The tag ends in `m`, the part of it that stands in `b`.
  · rcases List.eq_nil_or_concat m with rfl | ⟨m, c, rfl⟩
    · rw [List.append_nil] at hmark
      exact hmark ▸ List.prefix_rfl
    · rw [List.concat_eq_append, ← List.append_assoc] at hmark
      obtain ⟨hinit, -⟩ := List.append_inj' hmark rfl
      obtain ⟨d, a, rfl⟩ := List.exists_cons_of_ne_nil ha
      obtain ⟨rfl, rfl⟩ := List.cons.inj hinit
      rcases hs with hs | hs
      · have hmem := List.mem_of_getLast? hs
        simp_all
      · cases m with
        | nil => simp_all
        | cons e m =>
          obtain rfl : e = '<' := by simpa [hb] using hs
          simp at hlt

lemma cut?_append_of_seam {mark a b : Text} (hm : IsTag mark) (hs : Seam a b)
    (ha : ¬ mark <:+: a) :
    cut? mark (a ++ b) = (cut? mark b).map fun (before, rest) => (a ++ before, rest) := by
  apply cut?_append_of_not_prefix
  rintro x y rfl hy hp
  have hy' := prefix_of_seam hm (hs.drop hy) hy hp
  exact ha (hy'.isInfix.trans (List.suffix_append x y).isInfix)

lemma not_infix_append_of_seam {mark a b : Text} (hm : IsTag mark) (hs : Seam a b)
    (ha : ¬ mark <:+: a) (hb : ¬ mark <:+: b) : ¬ mark <:+: a ++ b := by
  rw [← cut?_eq_none_iff_not_infix] at hb ⊢
  rw [cut?_append_of_seam hm hs ha, hb]
  rfl

end Text

namespace Section

open Text (IsTag Seam cut?)

lemma mem_all (sec : Section) : sec ∈ all := by
  cases sec <;> decide

lemma isTag_opening (sec : Section) : IsTag sec.opening := by
  refine ⟨sec.name, rfl, ?_⟩
  cases sec <;> decide

lemma isTag_closing (sec : Section) : IsTag sec.closing := by
  refine ⟨'/' :: sec.name, rfl, ?_⟩
  cases sec <;> decide

lemma seam_opening (sec : Section) (s rest : Text) : Seam s (sec.opening ++ rest) :=
  Or.inr rfl

lemma seam_closing (sec : Section) (s rest : Text) : Seam s (sec.closing ++ rest) :=
  Or.inr rfl

lemma opening_injective {sec other : Section} (h : sec.opening = other.opening) : sec = other := by
  have hname : sec.name = other.name := by simpa [opening] using h
  revert hname
  cases sec <;> cases other <;> decide

lemma opening_ne_closing (sec other : Section) : sec.opening ≠ other.closing := by
  intro h
  have hname : sec.name ++ ['>'] = '/' :: (other.name ++ ['>']) := by
    simpa [opening, closing] using h
  revert hname
  cases sec <;> cases other <;> decide

def block (sec : Section) (body : Text) : Text :=
  sec.opening ++ (body ++ sec.closing)

lemma seam_block (sec : Section) (body rest : Text) : Seam (sec.block body) rest := by
  refine Or.inl ?_
  have hlast : sec.block body =
      sec.opening ++ body ++ '<' :: '/' :: sec.name ++ ['>'] := by
    simp [block, closing]
  rw [hlast, List.getLast?_concat]

lemma not_opening_infix_block {sec other : Section} {body : Text} (hne : sec ≠ other)
    (hb : ¬ sec.opening <:+: body) : ¬ sec.opening <:+: other.block body := by
  apply Text.not_infix_append_of_seam sec.isTag_opening
  · exact Or.inl (by cases other <;> rfl)
  · exact fun h => hne (opening_injective
      (Text.eq_of_infix_isTag sec.isTag_opening other.isTag_opening h))
  · apply Text.not_infix_append_of_seam sec.isTag_opening
    · simpa using other.seam_closing body []
    · exact hb
    · exact fun h => opening_ne_closing sec other
        (Text.eq_of_infix_isTag sec.isTag_opening other.isTag_closing h)

end Section

structure Layout where
  bodies : Section → Text
  parts : List (Text × Section)
  ending : Text
  complete : (parts.map Prod.snd).Perm Section.all

namespace Layout

def arrange (bodies : Section → Text) (parts : List (Text × Section)) (ending : Text) : Text :=
  parts.foldr (fun part rest => part.1 ++ (part.2.block (bodies part.2) ++ rest)) ending

def text (layout : Layout) : Text :=
  arrange layout.bodies layout.parts layout.ending

def fillers (layout : Layout) : List Text :=
  layout.parts.map Prod.fst ++ [layout.ending]

structure Clean (layout : Layout) : Prop where
  filler : ∀ filler ∈ layout.fillers, ∀ sec : Section, ¬ sec.opening <:+: filler
  body : ∀ sec other : Section, ¬ sec.opening <:+: layout.bodies other
  closing : ∀ sec : Section, ¬ sec.closing <:+: layout.bodies sec

open Text (cut?)

lemma clean_iff {layout : Layout} : layout.Clean ↔
    (∀ filler ∈ layout.fillers, ∀ sec ∈ Section.all, cut? sec.opening filler = none) ∧
    (∀ sec ∈ Section.all, ∀ other ∈ Section.all, cut? sec.opening (layout.bodies other) = none) ∧
    ∀ sec ∈ Section.all, cut? sec.closing (layout.bodies sec) = none := by
  simp only [Text.cut?_eq_none_iff_not_infix, Section.mem_all, forall_const]
  exact ⟨fun h => ⟨h.filler, h.body, h.closing⟩, fun ⟨hf, hb, hc⟩ => ⟨hf, hb, hc⟩⟩

instance (layout : Layout) : Decidable layout.Clean :=
  decidable_of_iff _ clean_iff.symm

lemma cut?_opening_arrange {bodies : Section → Text} {parts : List (Text × Section)} {sec : Section}
    (hf : ∀ filler ∈ parts.map Prod.fst, ¬ sec.opening <:+: filler)
    (hb : ∀ other, ¬ sec.opening <:+: bodies other) (hm : sec ∈ parts.map Prod.snd)
    (ending : Text) :
    ∃ before rest, cut? sec.opening (arrange bodies parts ending) =
      some (before, bodies sec ++ (sec.closing ++ rest)) := by
  induction parts with
  | nil => simp at hm
  | cons part parts ih =>
    obtain ⟨filler, other⟩ := part
    obtain ⟨hfiller, hf⟩ := List.forall_mem_cons.mp hf
    have hskip : cut? sec.opening (arrange bodies ((filler, other) :: parts) ending) =
        (cut? sec.opening (other.block (bodies other) ++ arrange bodies parts ending)).map
          fun (before, rest) => (filler ++ before, rest) := by
      apply Text.cut?_append_of_seam sec.isTag_opening _ hfiller
      simpa [Section.block] using other.seam_opening filler _
    by_cases hne : sec = other
    · subst hne
      refine ⟨filler, arrange bodies parts ending, ?_⟩
      rw [hskip, Section.block, List.append_assoc, Text.cut?_append_self]
      simp
    · obtain ⟨before, rest, hrest⟩ := ih hf ((List.mem_cons.mp hm).resolve_left hne)
      refine ⟨filler ++ (other.block (bodies other) ++ before), rest, ?_⟩
      rw [hskip, Text.cut?_append_of_seam sec.isTag_opening (other.seam_block _ _)
        (Section.not_opening_infix_block hne (hb other)), hrest]
      rfl

lemma body_text {layout : Layout} (h : layout.Clean) (sec : Section) :
    sec.body layout.text = layout.bodies sec := by
  have hmem : sec ∈ layout.parts.map Prod.snd := by
    rw [layout.complete.mem_iff]
    exact sec.mem_all
  have hfillers : ∀ filler ∈ layout.parts.map Prod.fst, ¬ sec.opening <:+: filler :=
    fun filler hf => h.filler filler (List.mem_append_left _ hf) sec
  obtain ⟨before, rest, hopen⟩ := cut?_opening_arrange hfillers (h.body sec) hmem layout.ending
  have hclose : cut? sec.closing (layout.bodies sec ++ (sec.closing ++ rest)) =
      some (layout.bodies sec, rest) := by
    rw [Text.cut?_append_of_seam sec.isTag_closing (sec.seam_closing _ _) (h.closing sec),
      Text.cut?_append_self]
    simp
  have hbody : sec.body? layout.text = some (layout.bodies sec) := by
    rw [Section.body?, text, hopen]
    simp [hclose]
  rw [Section.body, hbody]
  rfl

/-- The unit that is read from a source has the bodies of its layout, so neither the order nor the
text in between, nor the script, can be seen in the artifacts. -/
theorem unit_of_layout {layout : Layout} (h : layout.Clean) (name : Utf16) :
    SourceUnit.ofText name layout.text =
        ⟨name, layout.bodies .template, layout.bodies .style, layout.bodies .script⟩ ∧
      ∀ other : Layout, other.Clean → other.bodies .template = layout.bodies .template →
        other.bodies .style = layout.bodies .style → ∀ settings : Settings,
          Artifacts.ofCatalog (.ofUnits [.ofText name other.text]) settings =
            Artifacts.ofCatalog (.ofUnits [.ofText name layout.text]) settings := by
  have hunit : ∀ {l : Layout}, l.Clean → SourceUnit.ofText name l.text =
      ⟨name, l.bodies .template, l.bodies .style, l.bodies .script⟩ := by
    intro l hl
    simp only [SourceUnit.ofText, body_text hl]
  refine ⟨hunit h, ?_⟩
  intro other ho ht hs settings
  -- A component keeps no script.
  have hcatalog : Catalog.ofUnits [.ofText name other.text] =
      Catalog.ofUnits [.ofText name layout.text] := by
    rw [hunit ho, hunit h, ht, hs]
    rfl
  rw [hcatalog]

def bodiesOf (template style script : String) : Section → Text
  | .template => template.toList
  | .style => style.toList
  | .script => script.toList

def tidy : Layout where
  bodies := bodiesOf "\x7bx\x7d<style" "p </script>" ""
  parts := [([], .template), ([], .style), ([], .script)]
  ending := []
  complete := .refl _

def scattered : Layout where
  bodies := bodiesOf "\x7bx\x7d<style" "p </script>" "<script </style>"
  parts := [("</template><".toList, .script), ("<templ".toList, .style), ("<".toList, .template)]
  ending := "<style</style>".toList
  complete := List.reverse_perm Section.all

theorem unit_of_layout_scattered :
    scattered.Clean ∧ tidy.Clean ∧
      (SourceUnit.ofText (.ofString "card") scattered.text).style = "p </script>".toList ∧
      ∀ settings : Settings,
        Artifacts.ofCatalog (.ofUnits [.ofText (.ofString "card") tidy.text]) settings =
          Artifacts.ofCatalog (.ofUnits [.ofText (.ofString "card") scattered.text]) settings := by
  have hs : scattered.Clean := by decide +kernel
  have ht : tidy.Clean := by decide +kernel
  obtain ⟨hunit, hsame⟩ := unit_of_layout hs (.ofString "card")
  exact ⟨hs, ht, by rw [hunit]; rfl, hsame tidy ht rfl rfl⟩

end Layout

end ComponentCompiler
