import ComponentCompiler.Proofs.Units
import ComponentCompiler.Text.Literal
import Mathlib.Tactic.IntervalCases

/-! A literal ends where its own closing quote stands: whatever follows it in a text, reading gives
back the units that were written and leaves what follows. -/

namespace ComponentCompiler.Text.Literal

open Utf16 (ofChar unit)

lemma hexValue?_digitChar {n : Nat} (h : n < 16) : hexValue? (Nat.digitChar n) = some n := by
  interval_cases n <;> rfl

lemma hexValue4?_digits {n : Nat} (h : n < 0x10000) :
    hexValue4? (Nat.digitChar (n / 4096 % 16)) (Nat.digitChar (n / 256 % 16))
      (Nat.digitChar (n / 16 % 16)) (Nat.digitChar (n % 16)) = some n := by
  have hn : ((n / 4096 % 16 * 16 + n / 256 % 16) * 16 + n / 16 % 16) * 16 + n % 16 = n := by omega
  simp [hexValue4?, hexValue?_digitChar (Nat.mod_lt _ (by decide)), hn]

lemma content_escapeUnit (opened : Nat) (u : UInt16) {s : Text} (hs : s ≠ []) :
    content opened (escapeUnit u.toNat ++ s) = push [u] (content opened s) := by
  obtain ⟨c, s, rfl⟩ := List.exists_cons_of_ne_nil hs
  have hv := hexValue4?_digits u.toNat_lt
  simp only [escapeUnit, hex4, List.map_cons, List.map_nil, List.cons_append, List.nil_append]
  rw [content.eq_def]
  simp [hv]

lemma content_printable (opened : Nat) {c : Char} (s : Text) (hq : c ≠ '"') (hb : c ≠ '\\')
    (hc : 0x20 ≤ c.toNat) :
    content opened (c :: s) = push (ofChar c) (content opened s) := by
  have hlow : ¬ c.toNat < 0x20 := by omega
  rw [content.eq_def]
  split <;> simp_all

def Printable (c : Char) : Prop :=
  0x20 ≤ c.toNat ∧ c.toNat ≤ 0x7e

instance (c : Char) : Decidable (Printable c) :=
  inferInstanceAs (Decidable (_ ∧ _))

lemma printable_digitChar {n : Nat} (h : n < 16) : Printable (Nat.digitChar n) := by
  interval_cases n <;> decide

lemma toNat_of_printable {u : UInt16} (h : (0x20 ≤ u && u ≤ 0x7e) = true) :
    (Char.ofNat u.toNat).toNat = u.toNat ∧ Printable (Char.ofNat u.toNat) := by
  have hr : 0x20 ≤ u.toNat ∧ u.toNat ≤ 0x7e := by simpa [UInt16.le_iff_toNat_le] using h
  have hc : (Char.ofNat u.toNat).toNat = u.toNat :=
    Utf16.toNat_ofNat_of_valid (Or.inl (by omega))
  exact ⟨hc, by rwa [Printable, hc]⟩

lemma printable_of_all {s : Text} (hs : s.all (fun c => decide (Printable c)) = true) {c : Char}
    (h : c ∈ s) : Printable c :=
  of_decide_eq_true (List.all_eq_true.mp hs c h)

lemma printable_of_mem_encodeUnit {u : UInt16} {c : Char} (h : c ∈ encodeUnit u) : Printable c := by
  rw [encodeUnit] at h
  split_ifs at h with h₁ h₂ h₃ h₄ h₅ h₆ h₇ h₈
  all_goals try exact printable_of_all (by decide) h
  · obtain rfl := List.mem_singleton.mp h
    exact (toNat_of_printable h₈).2
  · simp only [escapeUnit, hex4, List.map_cons, List.map_nil, List.mem_cons, List.not_mem_nil,
      or_false] at h
    rcases h with rfl | rfl | rfl | rfl | rfl | rfl
    · decide
    · decide
    all_goals exact printable_digitChar (Nat.mod_lt _ (by decide))

lemma printable_of_mem_encode {units : Utf16} {c : Char} (h : c ∈ encode units) : Printable c := by
  simp only [encode, List.mem_cons, List.mem_append, List.mem_flatMap, List.not_mem_nil,
    or_false] at h
  rcases h with (rfl | ⟨u, _, hu⟩) | rfl
  · decide
  · exact printable_of_mem_encodeUnit hu
  · decide

lemma content_encodeUnit (opened : Nat) (u : UInt16) {s : Text} (hs : s ≠ []) :
    content opened (encodeUnit u ++ s) = push [u] (content opened s) := by
  rw [encodeUnit]
  split_ifs with h₁ h₂ h₃ h₄ h₅ h₆ h₇ h₈
  · subst h₁; rfl
  · subst h₂; rfl
  · subst h₃; rfl
  · subst h₄; rfl
  · subst h₅; rfl
  · subst h₆; rfl
  · subst h₇; rfl
  · obtain ⟨hc, hp⟩ := toNat_of_printable h₈
    have hne : ∀ c, u ≠ unit c → Char.ofNat u.toNat ≠ c := by
      rintro c hu rfl
      exact hu (by simp [unit, hc])
    rw [List.singleton_append, content_printable opened s (hne _ h₁) (hne _ h₂) hp.1,
      Utf16.ofChar_of_toNat hc]
  · exact content_escapeUnit opened u hs

lemma content_units (opened : Nat) (units : Utf16) (s : Text) :
    content opened (units.flatMap encodeUnit ++ '"' :: s) = .ok (units, s) := by
  induction units with
  | nil => rfl
  | cons u units ih =>
    rw [List.flatMap_cons, List.append_assoc, content_encodeUnit opened u (by simp), ih]
    rfl

def read? : Text → Option (Utf16 × Text)
  | '"' :: s => (content 0 s).toOption
  | _ => none

@[simp] lemma read?_encode (units : Utf16) (s : Text) :
    read? (encode units ++ s) = some (units, s) := by
  have h := content_units 0 units s
  simp [encode, read?, h]
  rfl

end ComponentCompiler.Text.Literal
