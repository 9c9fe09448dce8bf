import ComponentCompiler.Text.Basic
import Mathlib.Data.List.DropRight

/-! What the searches in a text find, and how joined parts come apart again. -/

namespace ComponentCompiler.Text

lemma after?_eq_some_iff {mark s rest : Text} : after? mark s = some rest ↔ s = mark ++ rest := by
  induction mark generalizing s with
  | nil => simp [after?]
  | cons m mark ih =>
    cases s with
    | nil => simp [after?]
    | cons c s =>
      by_cases hc : m = c
      · simp [after?, hc, ih]
      · simp [after?, hc, Ne.symm hc]

@[simp] lemma after?_append (mark rest : Text) : after? mark (mark ++ rest) = some rest :=
  after?_eq_some_iff.mpr rfl

lemma eq_of_cut? {mark s before rest : Text} (h : cut? mark s = some (before, rest)) :
    s = before ++ mark ++ rest := by
  induction s generalizing before with
  | nil =>
    obtain ⟨r, hr, he⟩ := Option.map_eq_some_iff.mp h
    obtain ⟨rfl, rfl⟩ := Prod.mk.inj he
    exact after?_eq_some_iff.mp hr
  | cons c s ih =>
    rw [cut?] at h
    split at h
    · next r hr =>
      obtain ⟨rfl, rfl⟩ := Prod.mk.inj (Option.some.inj h)
      exact after?_eq_some_iff.mp hr
    · obtain ⟨⟨b, r⟩, hb, he⟩ := Option.map_eq_some_iff.mp h
      obtain ⟨rfl, rfl⟩ := Prod.mk.inj he
      exact congrArg (c :: ·) (ih hb)

lemma cut?_append (mark before rest : Text) :
    ∃ b r, cut? mark (before ++ mark ++ rest) = some (b, r) ∧ b.length ≤ before.length := by
  induction before with
  | nil =>
    cases h : mark ++ rest with
    | nil =>
      obtain ⟨rfl, rfl⟩ := List.append_eq_nil_iff.mp h
      exact ⟨[], [], rfl, Nat.le_refl _⟩
    | cons c s =>
      have hr : after? mark (c :: s) = some rest := after?_eq_some_iff.mpr h.symm
      exact ⟨[], rest, by simp [h, cut?, hr], Nat.le_refl _⟩
  | cons c before ih =>
    obtain ⟨b, r, hb, hl⟩ := ih
    simp only [List.cons_append, cut?]
    split
    · next r' _ => exact ⟨[], r', rfl, Nat.zero_le _⟩
    · exact ⟨c :: b, r, by rw [hb]; rfl, Nat.succ_le_succ hl⟩

lemma cut?_eq_some_iff {mark s before rest : Text} :
    cut? mark s = some (before, rest) ↔
      s = before ++ mark ++ rest ∧ ∀ b r, s = b ++ mark ++ r → before.length ≤ b.length := by
  constructor
  · intro h
    refine ⟨eq_of_cut? h, ?_⟩
    rintro b r rfl
    obtain ⟨b', r', hb, hl⟩ := cut?_append mark b r
    obtain ⟨rfl, rfl⟩ := Prod.mk.inj (Option.some.inj (h.symm.trans hb))
    exact hl
  · rintro ⟨rfl, hmin⟩
    obtain ⟨b, r, hb, hl⟩ := cut?_append mark before rest
    have he := eq_of_cut? hb
    have hlen : before.length = b.length := Nat.le_antisymm (hmin b r he) hl
    obtain ⟨hbm, rfl⟩ := List.append_inj he (by simp [hlen])
    rw [hb, List.append_cancel_right hbm]

lemma cut?_eq_none_iff {mark s : Text} :
    cut? mark s = none ↔ ∀ before rest, s ≠ before ++ mark ++ rest := by
  constructor
  · rintro h before rest rfl
    obtain ⟨b, r, hb, _⟩ := cut?_append mark before rest
    cases h.symm.trans hb
  · intro h
    cases hc : cut? mark s with
    | none => rfl
    | some p => exact (h p.1 p.2 (eq_of_cut? hc)).elim

lemma cut?_of_head_notMem {m : Char} {before : Text} (h : m ∉ before) (mark rest : Text) :
    cut? (m :: mark) (before ++ (m :: mark) ++ rest) = some (before, rest) := by
  refine cut?_eq_some_iff.mpr ⟨rfl, ?_⟩
  intro b r he
  by_contra hl
  have hb : b.length < before.length := by omega
  have hm := congrArg (·[b.length]?) he
  simp only [List.append_assoc, List.getElem?_append_left hb] at hm
  simp at hm
  exact h (List.mem_of_getElem? hm)

lemma cut?_singleton_eq_some_iff {c : Char} {s before rest : Text} :
    cut? [c] s = some (before, rest) ↔ s = before ++ c :: rest ∧ c ∉ before := by
  constructor
  · intro h
    obtain ⟨rfl, hmin⟩ := cut?_eq_some_iff.mp h
    refine ⟨by simp, fun hc => ?_⟩
    obtain ⟨b, r, rfl⟩ := List.append_of_mem hc
    have hl := hmin b (r ++ c :: rest) (by simp)
    simp only [List.length_append, List.length_cons] at hl
    omega
  · rintro ⟨rfl, hc⟩
    simpa using cut?_of_head_notMem hc [] rest

lemma cut?_singleton_eq_none_iff {c : Char} {s : Text} : cut? [c] s = none ↔ c ∉ s := by
  rw [cut?_eq_none_iff]
  constructor
  · intro h hm
    obtain ⟨before, rest, rfl⟩ := List.append_of_mem hm
    exact h before rest (by simp)
  · rintro h before rest rfl
    simp at h

lemma replaceFrom_append_of_head_notMem {m : Char} {before : Text} (h : m ∉ before)
    (mark new s : Text) :
    replaceFrom (m :: mark) new 0 (before ++ s) = before ++ replaceFrom (m :: mark) new 0 s := by
  induction before with
  | nil => rfl
  | cons c before ih =>
    obtain ⟨hc, hb⟩ := not_or.mp (mt List.mem_cons.mpr h)
    simp [replaceFrom, after?, hc, ih hb]

lemma replaceFrom_skip (mark new skipped s : Text) :
    replaceFrom mark new skipped.length (skipped ++ s) = replaceFrom mark new 0 s := by
  induction skipped with
  | nil => rfl
  | cons c skipped ih => simpa [replaceFrom] using ih

lemma replace_once {m : Char} {before rest : Text} (hb : m ∉ before) (hr : m ∉ rest)
    (mark new : Text) :
    replace (m :: mark) new (before ++ (m :: mark) ++ rest) = before ++ new ++ rest := by
  have hrest : replaceFrom (m :: mark) new 0 rest = rest := by
    simpa [replaceFrom] using replaceFrom_append_of_head_notMem hr mark new []
  have hmark : after? (m :: mark) (m :: (mark ++ rest)) = some rest :=
    after?_append (m :: mark) rest
  rw [replace, List.append_assoc, replaceFrom_append_of_head_notMem hb, List.cons_append,
    replaceFrom]
  simp [hmark, replaceFrom_skip, hrest]

lemma splitAt_eq_splitOn {α : Type} [DecidableEq α] (sep : α) (s : List α) :
    splitAt sep s = s.splitOn sep := by
  induction s with
  | nil => rfl
  | cons c s ih =>
    rw [splitAt, ih, List.splitOn_cons_eq_if_modifyHead]
    by_cases hc : c = sep
    · simp [hc]
    · obtain ⟨piece, rest, hp⟩ := List.exists_cons_of_ne_nil (List.splitOn_ne_nil sep s)
      simp [hc, hp]

lemma splitAt_join {lines : List Text} (hn : lines ≠ []) (h : ∀ line ∈ lines, '\n' ∉ line) :
    splitAt '\n' (join ['\n'] lines) = lines := by
  rw [splitAt_eq_splitOn]
  exact List.splitOn_intercalate '\n' h hn

lemma intercalate_cons {α : Type} (sep part : List α) (parts : List (List α)) :
    sep.intercalate (part :: parts) = part ++ parts.flatMap (sep ++ ·) := by
  induction parts generalizing part with
  | nil => simp
  | cons next parts ih =>
    rw [List.intercalate_cons_cons, ih next, List.flatMap_cons]
    simp only [List.append_assoc]

lemma intercalate_append_cons {α : Type} (sep part : List α) (before after : List (List α)) :
    sep.intercalate (before ++ part :: after) =
      before.flatMap (· ++ sep) ++ (part ++ after.flatMap (sep ++ ·)) := by
  induction before with
  | nil => exact intercalate_cons sep part after
  | cons first before ih =>
    rw [List.cons_append, List.intercalate_cons_of_ne_nil (by simp), ih, List.flatMap_cons]
    simp only [List.append_assoc]

lemma dropEndWhile_concat {p : Char → Bool} {c : Char} (h : p c = false) (s : Text) :
    dropEndWhile p (s ++ [c]) = s ++ [c] :=
  List.rdropWhile_concat_neg p s c (by simp [h])

lemma dropEndWhile_newline (s : Text) :
    dropEndWhile (· = '\n') (s ++ ['\n']) = dropEndWhile (· = '\n') s :=
  List.rdropWhile_concat_pos _ s '\n' (by simp)

end ComponentCompiler.Text
