import Mathlib.Data.List.DropRight
import Mathlib.Data.List.TakeWhile

/-! Trimming by a class of blanks: what goes and what stays, and when two classes of blanks trim a
text alike. -/

namespace ComponentCompiler.Text

variable {α β : Type} {p q : α → Bool}

def trimBy (p : α → Bool) (s : List α) : List α :=
  (s.dropWhile p).rdropWhile p

def ends (p : α → Bool) (s : List α) : List α :=
  s.takeWhile p ++ s.rtakeWhile p

structure Tight (p : α → Bool) (s : List α) : Prop where
  head : ∀ c, s.head? = some c → p c = false
  last : ∀ c, s.reverse.head? = some c → p c = false

lemma head?_dropWhile {s : List α} {c : α} (h : (s.dropWhile p).head? = some c) : p c = false := by
  have hn := List.head?_dropWhile_not p s
  rw [h] at hn
  exact hn

lemma tight_trimBy (p : α → Bool) (s : List α) : Tight p (trimBy p s) := by
  constructor
  · intro c hc
    obtain ⟨rest, hr⟩ : trimBy p s <+: s.dropWhile p := List.rdropWhile_prefix p _
    have hhead : (s.dropWhile p).head? = some c := by
      rw [← hr, List.head?_append, hc]
      rfl
    exact head?_dropWhile hhead
  · intro c hc
    rw [trimBy, List.rdropWhile, List.reverse_reverse] at hc
    exact head?_dropWhile hc

lemma exists_trimBy (p : α → Bool) (s : List α) :
    ∃ left right, s = left ++ trimBy p s ++ right ∧ ∀ c ∈ left ++ right, p c = true := by
  refine ⟨s.takeWhile p, (s.dropWhile p).rtakeWhile p, ?_, fun c hc => ?_⟩
  · rw [trimBy, List.append_assoc, List.rdropWhile_append_rtakeWhile,
      List.takeWhile_append_dropWhile]
  · rcases List.mem_append.mp hc with hc | hc
    · exact List.mem_takeWhile_imp hc
    · exact List.mem_rtakeWhile_imp hc

lemma mem_of_mem_trimBy {s : List α} {c : α} (h : c ∈ trimBy p s) : c ∈ s := by
  obtain ⟨left, right, hs, -⟩ := exists_trimBy p s
  rw [hs]
  exact List.mem_append_left _ (List.mem_append_right _ h)

lemma dropWhile_eq_self {s : List α} (h : ∀ c, s.head? = some c → p c = false) :
    s.dropWhile p = s := by
  cases s with
  | nil => rfl
  | cons c s => exact List.dropWhile_cons_of_neg (by simp [h c rfl])

lemma Tight.trimBy_eq {s : List α} (h : Tight p s) : trimBy p s = s := by
  rw [trimBy, dropWhile_eq_self h.head, List.rdropWhile, dropWhile_eq_self h.last,
    List.reverse_reverse]

lemma mem_of_mem_takeWhile_append {left rest : List α} {c : α}
    (hr : ∀ d, rest.head? = some d → p d = false) (hc : c ∈ (left ++ rest).takeWhile p) :
    c ∈ left := by
  induction left with
  | nil =>
    cases rest with
    | nil => simp at hc
    | cons d rest => simp [hr d rfl] at hc
  | cons d left ih =>
    by_cases hd : p d = true
    · rw [List.cons_append, List.takeWhile_cons_of_pos hd] at hc
      rcases List.mem_cons.mp hc with rfl | hc
      · exact List.mem_cons_self
      · exact List.mem_cons_of_mem d (ih hc)
    · rw [List.cons_append, List.takeWhile_cons_of_neg hd] at hc
      cases hc

lemma mem_of_mem_ends {left mid right : List α} {c : α} (ht : Tight p mid)
    (hc : c ∈ ends p (left ++ mid ++ right)) : c ∈ left ++ right := by
  cases mid with
  | nil =>
    rw [List.append_nil] at hc
    rcases List.mem_append.mp hc with hc | hc
    · exact (List.takeWhile_prefix p).subset hc
    · exact (List.rtakeWhile_suffix p _).subset hc
  | cons d mid =>
    rcases List.mem_append.mp hc with hc | hc
    · rw [List.append_assoc, List.cons_append] at hc
      have hhead : ∀ e, (d :: (mid ++ right)).head? = some e → p e = false :=
        fun e he => ht.head e he
      exact List.mem_append_left _ (mem_of_mem_takeWhile_append hhead hc)
    · rw [List.rtakeWhile, List.mem_reverse, List.reverse_append, List.reverse_append] at hc
      have hhead : ∀ e, ((d :: mid).reverse ++ left.reverse).head? = some e → p e = false := by
        intro e he
        rw [List.head?_append_of_ne_nil _ (by simp)] at he
        exact ht.last e he
      exact List.mem_append_right _ (List.mem_reverse.mp (mem_of_mem_takeWhile_append hhead hc))

lemma mem_of_mem_ends_of_tight {s : List α} {c : α} (ht : Tight p (trimBy q s))
    (hc : c ∈ ends p s) : q c = true := by
  obtain ⟨left, right, hs, hq⟩ := exists_trimBy q s
  rw [hs] at hc
  exact hq c (mem_of_mem_ends ht hc)

lemma of_mem_ends {s : List α} {c : α} (hc : c ∈ ends p s) : p c = true := by
  rcases List.mem_append.mp hc with hc | hc
  · exact List.mem_takeWhile_imp hc
  · exact List.mem_rtakeWhile_imp hc

lemma countP_trimBy_eq {r : α → Bool} (h : ∀ c, p c = true → r c = false) (s : List α) :
    (trimBy p s).countP r = s.countP r := by
  obtain ⟨left, right, hs, hp⟩ := exists_trimBy p s
  have hl : left.countP r = 0 :=
    List.countP_eq_zero.mpr fun c hc => by simp [h c (hp c (List.mem_append_left _ hc))]
  have hr : right.countP r = 0 :=
    List.countP_eq_zero.mpr fun c hc => by simp [h c (hp c (List.mem_append_right _ hc))]
  have hcount := congrArg (List.countP r) hs
  rw [List.countP_append, List.countP_append, hl, hr] at hcount
  omega

lemma countP_trimBy_le (p r : α → Bool) (s : List α) : (trimBy p s).countP r ≤ s.countP r := by
  obtain ⟨left, right, hs, -⟩ := exists_trimBy p s
  have hcount := congrArg (List.countP r) hs
  rw [List.countP_append, List.countP_append] at hcount
  omega

lemma countP_trimBy_lt {r : α → Bool} {s : List α} {c : α} (hc : c ∈ ends p s) (hr : r c = true) :
    (trimBy p s).countP r < s.countP r := by
  obtain ⟨left, right, hs, -⟩ := exists_trimBy p s
  have hmem : c ∈ left ++ right := mem_of_mem_ends (tight_trimBy p s) (hs ▸ hc)
  have hpos : 0 < (left ++ right).countP r := List.countP_pos_iff.mpr ⟨c, hmem, hr⟩
  have hcount := congrArg (List.countP r) hs
  rw [List.countP_append, List.countP_append] at hcount
  rw [List.countP_append] at hpos
  omega

lemma dropWhile_eq_of_forall {s : List α} (hp : ∀ c ∈ s.takeWhile p, q c = true)
    (hq : ∀ c ∈ s.takeWhile q, p c = true) : s.dropWhile p = s.dropWhile q := by
  induction s with
  | nil => rfl
  | cons c s ih =>
    by_cases hc : p c = true
    · have hc' : q c = true := by
        apply hp
        rw [List.takeWhile_cons_of_pos hc]
        exact List.mem_cons_self
      rw [List.takeWhile_cons_of_pos hc] at hp
      rw [List.takeWhile_cons_of_pos hc'] at hq
      rw [List.dropWhile_cons_of_pos hc, List.dropWhile_cons_of_pos hc']
      exact ih (fun d hd => hp d (List.mem_cons_of_mem c hd))
        (fun d hd => hq d (List.mem_cons_of_mem c hd))
    · have hc' : ¬ q c = true := by
        intro hc'
        apply hc
        apply hq
        rw [List.takeWhile_cons_of_pos hc']
        exact List.mem_cons_self
      rw [List.dropWhile_cons_of_neg hc, List.dropWhile_cons_of_neg hc']

lemma trimBy_eq_of_forall {s : List α} (hp : ∀ c ∈ ends p s, q c = true)
    (hq : ∀ c ∈ ends q s, p c = true) : trimBy p s = trimBy q s := by
  have hdrop : s.dropWhile p = s.dropWhile q :=
    dropWhile_eq_of_forall (fun c hc => hp c (List.mem_append_left _ hc))
      (fun c hc => hq c (List.mem_append_left _ hc))
  -- The blanks that end what is left of the text also end the text.
  have hends : ∀ {r : α → Bool} {c : α}, c ∈ (s.dropWhile p).reverse.takeWhile r →
      c ∈ s.rtakeWhile r := by
    intro r c hc
    rw [List.rtakeWhile, List.mem_reverse, ← List.takeWhile_append_dropWhile (p := p) (l := s),
      List.reverse_append, List.takeWhile_append]
    split
    · exact List.mem_append_left _ ((List.takeWhile_prefix r).subset hc)
    · exact hc
  rw [trimBy, trimBy, ← hdrop, List.rdropWhile, List.rdropWhile]
  rw [dropWhile_eq_of_forall (fun c hc => hp c (List.mem_append_right _ (hends hc)))
    (fun c hc => hq c (List.mem_append_right _ (hends hc)))]

lemma dropWhile_flatMap {f : α → List β} {r : β → Bool} (hne : ∀ a, f a ≠ [])
    (h : ∀ a, ∀ b ∈ f a, r b = p a) (s : List α) :
    (s.flatMap f).dropWhile r = (s.dropWhile p).flatMap f := by
  induction s with
  | nil => rfl
  | cons a s ih =>
    rw [List.flatMap_cons]
    by_cases ha : p a = true
    · rw [List.dropWhile_append_of_pos fun b hb => (h a b hb).trans ha,
        List.dropWhile_cons_of_pos ha, ih]
    · obtain ⟨b, bs, hb⟩ := List.exists_cons_of_ne_nil (hne a)
      have hb' : ¬ r b = true := by
        rw [h a b (hb ▸ List.mem_cons_self)]
        exact ha
      rw [List.dropWhile_cons_of_neg ha, List.flatMap_cons, hb, List.cons_append,
        List.dropWhile_cons_of_neg hb']

lemma trimBy_flatMap {f : α → List β} {r : β → Bool} (hne : ∀ a, f a ≠ [])
    (h : ∀ a, ∀ b ∈ f a, r b = p a) (s : List α) :
    trimBy r (s.flatMap f) = (trimBy p s).flatMap f := by
  have hrev : ∀ a, ∀ b ∈ (List.reverse ∘ f) a, r b = p a :=
    fun a b hb => h a b (List.mem_reverse.mp hb)
  rw [trimBy, dropWhile_flatMap hne h, List.rdropWhile, List.reverse_flatMap,
    dropWhile_flatMap (by simpa using hne) hrev, ← List.flatMap_reverse]
  rfl

end ComponentCompiler.Text
