import ComponentCompiler.Text.Utf16
import Mathlib.Data.List.Basic

/-! Units and the points that they spell determine each other. -/

namespace ComponentCompiler.Utf16

lemma toNat_ofNat_of_valid {n : Nat} (h : n.isValidChar) : (Char.ofNat n).toNat = n := by
  rw [Char.ofNat, dif_pos h]
  rfl

lemma ofChar_of_toNat {c : Char} {u : UInt16} (h : c.toNat = u.toNat) : ofChar c = [u] := by
  have hu : u.toNat < 0x10000 := u.toNat_lt
  simp [ofChar, h, hu]

def spelling : Point → Utf16
  | .scalar c => ofChar c
  | .half u => [u]

lemma spelling_alone (u : UInt16) : spelling (alone u) = [u] := by
  unfold alone
  split
  · rfl
  · next h =>
    have hu := u.toNat_lt
    have hv : u.toNat.isValidChar := by
      simp only [Bool.or_eq_true, isLeading_iff, isTrailing_iff] at h
      rw [Nat.isValidChar]
      omega
    exact ofChar_of_toNat (toNat_ofNat_of_valid hv)

lemma ofChar_ofPair {u v : UInt16} (hu : isLeading u = true) (hv : isTrailing v = true) :
    ofChar (ofPair u v) = [u, v] := by
  rw [isLeading_iff] at hu
  rw [isTrailing_iff] at hv
  have hn : (ofPair u v).toNat = 0x10000 + (u.toNat - 0xd800) * 0x400 + (v.toNat - 0xdc00) := by
    apply toNat_ofNat_of_valid
    rw [Nat.isValidChar]
    omega
  have hl : 0xd800 + ((ofPair u v).toNat - 0x10000) / 0x400 = u.toNat := by omega
  have ht : 0xdc00 + ((ofPair u v).toNat - 0x10000) % 0x400 = v.toNat := by omega
  have hs : ¬ (ofPair u v).toNat < 0x10000 := by omega
  simp [ofChar, hs, hl, ht]

lemma flatMap_spelling_points (s : Utf16) : s.points.flatMap spelling = s := by
  fun_induction points s with
  | case1 => rfl
  | case2 u => simp [spelling_alone]
  | case3 u v rest h ih =>
    rw [Bool.and_eq_true] at h
    rw [List.flatMap_cons, ih, spelling, ofChar_ofPair h.1 h.2]
    rfl
  | case4 u v rest h ih =>
    rw [List.flatMap_cons, ih, spelling_alone]
    rfl

lemma ofChar_cases (c : Char) :
    (∃ u, ofChar c = [u] ∧ u.toNat = c.toNat) ∨
      0x10000 ≤ c.toNat ∧ ∃ u v, ofChar c = [u, v] ∧
        (0xd800 ≤ u.toNat ∧ u.toNat < 0xe000) ∧ (0xd800 ≤ v.toNat ∧ v.toNat < 0xe000) := by
  have hc := toNat_char_lt c
  by_cases h : c.toNat < 0x10000
  · exact Or.inl ⟨c.toNat.toUInt16, by simp [ofChar, h], toNat_toUInt16 h⟩
  · refine Or.inr ⟨by omega, _, _, by rw [ofChar, if_neg h], ?_, ?_⟩
    · rw [toNat_toUInt16 (by omega)]
      omega
    · rw [toNat_toUInt16 (by omega)]
      omega

lemma ofChar_ne_nil (c : Char) : ofChar c ≠ [] := by
  rcases ofChar_cases c with ⟨u, hu, -⟩ | ⟨-, u, v, huv, -⟩
  · simp [hu]
  · simp [huv]

lemma ofText_injective {s t : Text} (h : ofText s = ofText t) : s = t := by
  have ht := congrArg text? h
  simpa using ht

lemma eq_of_mapM_char? {points : List Point} {s : Text} (h : points.mapM Point.char? = some s) :
    points = s.map Point.scalar := by
  induction points generalizing s with
  | nil =>
    cases h
    rfl
  | cons p points ih =>
    cases p with
    | half u => simp [Point.char?] at h
    | scalar c =>
      simp only [List.mapM_cons, Point.char?, Option.bind_eq_bind, Option.bind_some,
        Option.bind_eq_some_iff] at h
      obtain ⟨rest, hr, h⟩ := h
      cases h
      rw [ih hr, List.map_cons]

lemma text?_eq_some_iff {s : Utf16} {t : Text} : s.text? = some t ↔ s = ofText t := by
  constructor
  · intro h
    rw [← flatMap_spelling_points s, eq_of_mapM_char? h, List.flatMap_map]
    rfl
  · rintro rfl
    exact text?_ofText t

lemma ofText_eq_nil_iff {s : Text} : ofText s = [] ↔ s = [] := by
  constructor
  · intro h
    exact ofText_injective h
  · rintro rfl
    rfl

lemma ofText_append (s t : Text) : ofText (s ++ t) = ofText s ++ ofText t :=
  List.flatMap_append

lemma toNat_unit {d : Char} (hd : d.toNat < 0xd800) : (unit d).toNat = d.toNat :=
  toNat_toUInt16 (by omega)

lemma ofText_cons_unit {d : Char} (hd : d.toNat < 0xd800) (s : Text) :
    ofText (d :: s) = unit d :: ofText s := by
  rw [ofText, List.flatMap_cons, ofChar_of_toNat (toNat_unit hd).symm]
  rfl

lemma unit_mem_ofText_iff {d : Char} (hd : d.toNat < 0xd800) {s : Text} :
    unit d ∈ ofText s ↔ d ∈ s := by
  have hunit := toNat_unit hd
  rw [ofText, List.mem_flatMap]
  constructor
  · rintro ⟨c, hc, hu⟩
    rcases ofChar_cases c with ⟨u, hu', hn⟩ | ⟨-, u, v, huv, hu', hv'⟩
    · rw [hu', List.mem_singleton] at hu
      rw [← hu, hunit, Char.toNat_inj] at hn
      exact hn ▸ hc
    · rw [huv, List.mem_cons, List.mem_singleton] at hu
      rcases hu with rfl | rfl <;> omega
  · intro h
    refine ⟨d, h, ?_⟩
    rw [ofChar_of_toNat hunit.symm]
    exact List.mem_singleton.mpr rfl

end ComponentCompiler.Utf16
