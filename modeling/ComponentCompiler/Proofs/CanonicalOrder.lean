import ComponentCompiler.Proofs.DiscoveryOrder
import Mathlib.Data.List.Lex

/-! The order of compilation is canonical: it is settled by which names there are, the suffix and
the name of the entry unit, and by nothing in the order in which a directory lists them. -/

namespace ComponentCompiler

namespace Utf16

def codes (s : Utf16) : List Nat :=
  s.points.map Point.code

def ofCodes (codes : List Nat) : Utf16 :=
  codes.flatMap fun n =>
    if 0xd800 ≤ n ∧ n < 0xe000 then [n.toUInt16] else ofChar (Char.ofNat n)

lemma isHalf_alone (u : UInt16) :
    (∃ c, alone u = .scalar c) ∨ alone u = .half u ∧ 0xd800 ≤ u.toNat ∧ u.toNat < 0xe000 := by
  unfold alone
  split
  · next h =>
    rw [Bool.or_eq_true, isLeading_iff, isTrailing_iff] at h
    exact Or.inr ⟨rfl, by omega⟩
  · exact Or.inl ⟨_, rfl⟩

lemma mem_points {s : Utf16} {p : Point} (h : p ∈ s.points) :
    (∃ c, p = .scalar c) ∨ ∃ u, p = .half u ∧ 0xd800 ≤ u.toNat ∧ u.toNat < 0xe000 := by
  have halone : ∀ u, p = alone u → (∃ c, p = .scalar c) ∨
      ∃ u, p = .half u ∧ 0xd800 ≤ u.toNat ∧ u.toNat < 0xe000 := by
    rintro u rfl
    exact (isHalf_alone u).imp_right fun hu => ⟨u, hu⟩
  fun_induction points s with
  | case1 => cases h
  | case2 u => exact halone u (List.mem_singleton.mp h)
  | case3 u v rest _ ih =>
    rcases List.mem_cons.mp h with rfl | h
    · exact Or.inl ⟨_, rfl⟩
    · exact ih h
  | case4 u v rest _ ih =>
    rcases List.mem_cons.mp h with h | h
    · exact halone u h
    · exact ih h

lemma ofCodes_codes (s : Utf16) : ofCodes s.codes = s := by
  have hpoint : ∀ p ∈ s.points, (if 0xd800 ≤ p.code ∧ p.code < 0xe000 then [p.code.toUInt16]
      else ofChar (Char.ofNat p.code)) = spelling p := by
    intro p hp
    rcases mem_points hp with ⟨c, rfl⟩ | ⟨u, rfl, hu⟩
    · rw [Point.code, if_neg (not_surrogate_of_char c), Char.ofNat_toNat]
      rfl
    · rw [Point.code, if_pos hu]
      simp [spelling]
  rw [ofCodes, codes, List.flatMap_map]
  exact (List.flatMap_congr hpoint).trans (flatMap_spelling_points s)

lemma codes_injective {s t : Utf16} (h : s.codes = t.codes) : s = t := by
  rw [← ofCodes_codes s, h, ofCodes_codes]

/-- Points that begin a text stay apart when they are spelt alone: no half of a pair meets another
one there that it did not meet in the text. -/
lemma points_flatMap_spelling {s : Utf16} {before after : List Point}
    (h : s.points = before ++ after) : points (before.flatMap spelling) = before := by
  fun_induction points s generalizing before with
  | case1 =>
    obtain ⟨rfl, -⟩ := List.append_eq_nil_iff.mp h.symm
    rfl
  | case2 u =>
    cases before with
    | nil => rfl
    | cons p before =>
      obtain ⟨rfl, hnil⟩ := List.cons.inj h
      obtain ⟨rfl, -⟩ := List.append_eq_nil_iff.mp hnil.symm
      simp [spelling_alone, points]
  | case3 u v rest _ ih =>
    cases before with
    | nil => rfl
    | cons p before =>
      obtain ⟨rfl, hrest⟩ := List.cons.inj h
      rw [List.flatMap_cons, spelling, points_ofChar_append, ih hrest]
  | case4 u v rest hp ih =>
    cases before with
    | nil => rfl
    | cons p before =>
      obtain ⟨rfl, hrest⟩ : p = alone u ∧ points (v :: rest) = before ++ after :=
        (List.cons.inj h).imp_left Eq.symm
      have hbefore := ih hrest
      have hspelt : v :: rest = before.flatMap spelling ++ after.flatMap spelling := by
        rw [← List.flatMap_append, ← hrest, flatMap_spelling_points]
      rw [List.flatMap_cons, spelling_alone, List.singleton_append]
      cases hs : before.flatMap spelling with
      | nil =>
        rw [hs] at hbefore
        rw [← hbefore]
        rfl
      | cons w t =>
        rw [hs] at hbefore hspelt
        obtain ⟨rfl, -⟩ := List.cons.inj hspelt
        rw [points, if_neg hp, hbefore]

lemma codesPrecede_iff {s t : List Nat} : codesPrecede s t = true ↔ s ≤ t := by
  rw [← not_lt]
  induction s generalizing t with
  | nil => simp [codesPrecede]
  | cons a s ih =>
    cases t with
    | nil => simp [codesPrecede]
    | cons b t =>
      rcases lt_trichotomy a b with h | rfl | h
      · simp [codesPrecede, List.cons_lt_cons_iff, h, h.not_gt, h.ne']
      · simp [codesPrecede, ih]
      · simp [codesPrecede, List.cons_lt_cons_iff, h, h.not_gt, h.ne']

lemma precedes_iff {s t : Utf16} : precedes s t = true ↔ s.codes ≤ t.codes :=
  codesPrecede_iff

end Utf16

namespace Discovery

open Utf16 (precedes precedes_iff)

def Increasing (names : List Utf16) : Prop :=
  names.Pairwise fun a b => a.codes < b.codes

lemma increasing_mergeSort {names : List Utf16} (h : names.Nodup) :
    Increasing (names.mergeSort precedes) := by
  have hsorted : (names.mergeSort precedes).Pairwise fun a b => precedes a b = true := by
    apply List.pairwise_mergeSort
    · intro a b c hab hbc
      rw [precedes_iff] at hab hbc ⊢
      exact hab.trans hbc
    · intro a b
      rw [Bool.or_eq_true, precedes_iff, precedes_iff]
      exact le_total _ _
  have hne : (names.mergeSort precedes).Pairwise (· ≠ ·) :=
    (List.mergeSort_perm _ _).nodup_iff.mpr h
  refine (hsorted.and hne).imp ?_
  rintro a b ⟨hab, hne⟩
  exact lt_of_le_of_ne (precedes_iff.mp hab) fun he => hne (Utf16.codes_injective he)

lemma Increasing.eq_of_perm {names others : List Utf16} (h : Increasing names)
    (h' : Increasing others) (hp : names.Perm others) : names = others :=
  hp.eq_of_pairwise (fun _ _ _ _ hab hba => absurd hba (lt_asymm hab)) h h'

def IsEntry (suffix entryName filename : Utf16) : Prop :=
  filename.points = entryName.points ++ suffix.points

lemma isEntry_iff {suffix entryName filename : Utf16} :
    IsEntry suffix entryName filename ↔
      Utf16.endsIn suffix filename = true ∧ componentName suffix filename = entryName := by
  constructor
  · exact componentName_of_points
  · rintro ⟨he, rfl⟩
    obtain ⟨before, hb⟩ := List.isSuffixOf_iff_suffix.mp he
    have hstem : componentName suffix filename = before.flatMap Utf16.spelling := by
      apply (List.append_left_inj suffix).mp
      rw [componentName_append he, ← Utf16.eq_append_of_points hb.symm]
    rw [IsEntry, hstem, Utf16.points_flatMap_spelling hb.symm, hb]

structure Canonical (suffix entryName : Utf16) (names result : List Utf16) : Prop where
  perm : result.Perm (names.filter fun name => suffix.points.isSuffixOf name.points)
  entry : ∀ name ∈ names, IsEntry suffix entryName name →
    ∃ others, result = name :: others ∧ name ∉ others ∧ Increasing others
  noEntry : (∀ name ∈ names, ¬ IsEntry suffix entryName name) → Increasing result

variable {suffix entryName : Utf16} {names : List Utf16}

lemma IsEntry.eq {a b : Utf16} (ha : IsEntry suffix entryName a)
    (hb : IsEntry suffix entryName b) : a = b := by
  apply Utf16.codes_injective
  rw [Utf16.codes, ha, Utf16.codes, hb]

lemma filter_entry_of_mem (h : names.Nodup) {name : Utf16} (hm : name ∈ names)
    (he : IsEntry suffix entryName name) :
    (names.filter (Utf16.endsIn suffix)).filter (componentName suffix · = entryName) = [name] := by
  have hnodup := (h.filter (Utf16.endsIn suffix)).filter (componentName suffix · = entryName)
  apply List.perm_singleton.mp
  refine (List.perm_ext_iff_of_nodup hnodup (List.nodup_singleton _)).mpr ?_
  intro other
  rw [List.mem_filter, List.mem_filter, List.mem_singleton, decide_eq_true_iff, and_assoc,
    ← isEntry_iff]
  constructor
  · exact fun ho => ho.2.eq he
  · rintro rfl
    exact ⟨hm, he⟩

lemma filter_entry_of_forall (h : ∀ name ∈ names, ¬ IsEntry suffix entryName name) :
    (names.filter (Utf16.endsIn suffix)).filter (componentName suffix · = entryName) = [] := by
  rw [List.filter_eq_nil_iff]
  intro name hm hn
  obtain ⟨hm, he⟩ := List.mem_filter.mp hm
  exact h name hm (isEntry_iff.mpr ⟨he, of_decide_eq_true hn⟩)

lemma canonical_order (h : names.Nodup) (suffix entryName : Utf16) :
    Canonical suffix entryName names (order suffix entryName names) := by
  have hincreasing := increasing_mergeSort
    ((h.filter (Utf16.endsIn suffix)).filter (componentName suffix · ≠ entryName))
  refine ⟨order_perm suffix entryName names, ?_, ?_⟩
  · intro name hm he
    refine ⟨_, by rw [order, filter_entry_of_mem h hm he]; rfl, ?_, hincreasing⟩
    rw [List.mem_mergeSort, List.mem_filter]
    rintro ⟨-, hne⟩
    exact of_decide_eq_true hne (isEntry_iff.mp he).2
  · intro hnone
    rw [order, filter_entry_of_forall hnone]
    exact hincreasing

lemma Canonical.unique {others result result' : List Utf16}
    (h : Canonical suffix entryName names result)
    (h' : Canonical suffix entryName others result') (hp : names.Perm others) :
    result = result' := by
  have hperm : result.Perm result' := h.perm.trans ((hp.filter _).trans h'.perm.symm)
  by_cases hentry : ∃ name ∈ names, IsEntry suffix entryName name
  · obtain ⟨name, hm, he⟩ := hentry
    obtain ⟨rest, rfl, -, hrest⟩ := h.entry name hm he
    obtain ⟨rest', rfl, -, hrest'⟩ := h'.entry name (hp.mem_iff.mp hm) he
    rw [hrest.eq_of_perm hrest' hperm.cons_inv]
  · have hnone : ∀ name ∈ names, ¬ IsEntry suffix entryName name :=
      fun name hm he => hentry ⟨name, hm, he⟩
    exact (h.noEntry hnone).eq_of_perm
      (h'.noEntry fun name hm => hnone name (hp.mem_iff.mpr hm)) hperm

/-- The order of compilation is the only canonical one, so two listings of the same names give the
same order, and discovery gives it for every listing of them. -/
theorem order_eq_iff_canonical (h : names.Nodup) (suffix entryName : Utf16) :
    (∀ result, result = order suffix entryName names ↔
      Canonical suffix entryName names result) ∧
    (∀ others, others.Perm names →
      order suffix entryName others = order suffix entryName names) ∧
    ∀ disk directory listing, Disk.list disk directory = .ok listing → listing.Perm names →
      sources disk directory suffix entryName = .ok (order suffix entryName names) := by
  have hcanonical := canonical_order h suffix entryName
  have hothers : ∀ others, others.Perm names →
      order suffix entryName others = order suffix entryName names := fun others hp =>
    (canonical_order (hp.nodup_iff.mpr h) suffix entryName).unique hcanonical hp
  refine ⟨fun result => ⟨?_, fun hr => hr.unique hcanonical (List.Perm.refl _)⟩, hothers, ?_⟩
  · rintro rfl
    exact hcanonical
  · intro disk directory listing hl hp
    rw [sources, hl, ← hothers listing hp]

/-- In the order of units the name beyond the basic plane would come before the one in it. -/
def mixedListing : List Utf16 :=
  [.ofString "😀.zmx", .ofString "main.zmx", .ofString "notes.txt", .ofString "～.zmx"]

theorem order_mixedListing :
    mixedListing.Nodup ∧ order (.ofString ".zmx") (.ofString "main") mixedListing =
      [.ofString "main.zmx", .ofString "～.zmx", .ofString "😀.zmx"] := by
  have hn : mixedListing.Nodup := by decide +kernel
  have hentry : IsEntry (.ofString ".zmx") (.ofString "main") (.ofString "main.zmx") := by
    unfold IsEntry
    decide +kernel
  have hothers : Increasing [.ofString "～.zmx", .ofString "😀.zmx"] := by
    unfold Increasing
    decide +kernel
  refine ⟨hn, (((order_eq_iff_canonical hn _ _).1 _).mpr ⟨by decide +kernel, ?_, ?_⟩).symm⟩
  · intro name hm he
    exact ⟨_, by rw [he.eq hentry], by rw [he.eq hentry]; decide +kernel, hothers⟩
  · intro hnone
    exact absurd hentry (hnone _ (by simp [mixedListing]))

end Discovery

end ComponentCompiler
