import ComponentCompiler.Proofs.DocumentDecoding

/-! Where the scripts of a document end. Of all texts that reach the document only the identifier of
the root element stands in a script, and a literal leaves its angle brackets as they are. -/

namespace ComponentCompiler.Document

open Text.Literal (encode encodeUnit escapeUnit hex4)
open Text.Markup (escape)
open Utf16 (ofString ofText unit)

def lower (u : UInt16) : UInt16 :=
  if 0x41 ≤ u.toNat ∧ u.toNat ≤ 0x5a then (u.toNat + 0x20).toUInt16 else u

def closingMark : Utf16 := ofString "</script"

def closesAt (s : Utf16) : Bool :=
  closingMark.isPrefixOf (s.map lower)

def closings : Utf16 → Nat
  | [] => 0
  | u :: s => (if closesAt (u :: s) then 1 else 0) + closings s

lemma toNat_lower (u : UInt16) :
    (lower u).toNat = if 0x41 ≤ u.toNat ∧ u.toNat ≤ 0x5a then u.toNat + 0x20 else u.toNat := by
  rw [lower]
  split
  · next h => exact Utf16.toNat_toUInt16 (by omega)
  · rfl

lemma closesAt_iff {s : Utf16} : closesAt s = true ↔ closingMark <+: s.map lower :=
  List.isPrefixOf_iff_prefix

lemma eq_of_closesAt {u : UInt16} {s : Utf16} (h : closesAt (u :: s) = true) : u = unit '<' := by
  obtain ⟨rest, hrest⟩ := closesAt_iff.mp h
  have hhead : unit '<' = lower u := (List.cons.inj hrest).1
  have hnat := toNat_lower u
  rw [← hhead] at hnat
  have hangle : (unit '<').toNat = 0x3c := rfl
  apply UInt16.toNat_inj.mp
  split at hnat <;> omega

lemma closings_append_of_notMem {s : Utf16} (h : unit '<' ∉ s) (t : Utf16) :
    closings (s ++ t) = closings t := by
  induction s with
  | nil => rfl
  | cons u s ih =>
    have hno : ¬ closesAt (u :: (s ++ t)) = true := by
      intro hc
      exact h (eq_of_closesAt hc ▸ List.mem_cons_self)
    rw [List.cons_append, closings, if_neg hno, Nat.zero_add,
      ih fun hm => h (List.mem_cons_of_mem u hm)]

/-- No mark begins in the text and ends after it. -/
def Sealed (s : Utf16) : Prop :=
  ∀ r ∈ s.tails, r ≠ [] → r.map lower <+: closingMark → closingMark <+: r.map lower

instance (s : Utf16) : Decidable (Sealed s) :=
  inferInstanceAs (Decidable (∀ r ∈ s.tails, _ → _ → _))

lemma closings_append {s : Utf16} (h : Sealed s) (t : Utf16) :
    closings (s ++ t) = closings s + closings t := by
  induction s with
  | nil => simp [closings]
  | cons u s ih =>
    have htail : Sealed s := fun r hr => h r (by simp [hr])
    have hhere : closesAt (u :: (s ++ t)) = closesAt (u :: s) := by
      rw [Bool.eq_iff_iff, closesAt_iff, closesAt_iff, ← List.cons_append, List.map_append]
      constructor
      · intro hp
        rcases List.prefix_or_prefix_of_prefix hp (List.prefix_append _ _) with hp | hp
        · exact hp
        · exact h (u :: s) (by simp) (List.cons_ne_nil u s) hp
      · exact fun hp => hp.trans (List.prefix_append _ _)
    rw [List.cons_append, closings, closings, hhere, ih htail, Nat.add_assoc]

lemma notMem_hex4 (n : Nat) : '<' ∉ hex4 n := by
  have hdigit : ∀ d < 16, Nat.digitChar d ≠ '<' := by decide
  simp only [hex4, List.map_cons, List.map_nil, List.mem_cons, List.not_mem_nil, or_false, not_or]
  exact ⟨(hdigit _ (Nat.mod_lt _ (by decide))).symm, (hdigit _ (Nat.mod_lt _ (by decide))).symm,
    (hdigit _ (Nat.mod_lt _ (by decide))).symm, (hdigit _ (Nat.mod_lt _ (by decide))).symm⟩

lemma encodeUnit_cases (u : UInt16) :
    ofText (encodeUnit u) = [u] ∨ ∃ rest, ofText (encodeUnit u) = unit '\\' :: rest ∧
      unit '<' ∉ rest ∧ lower u ∉ closingMark := by
  rw [encodeUnit]
  split_ifs with h₁ h₂ h₃ h₄ h₅ h₆ h₇ h₈
  all_goals try (subst_vars; exact Or.inr ⟨_, rfl, by decide, by decide⟩)
  · left
    rw [ofText, List.flatMap_singleton,
      Utf16.ofChar_of_toNat (Text.Literal.toNat_of_printable h₈).1]
  · refine Or.inr ⟨ofText ('u' :: hex4 u.toNat), Utf16.ofText_cons_unit (by decide) _, ?_, ?_⟩
    · rw [Utf16.unit_mem_ofText_iff (by decide)]
      simp [notMem_hex4]
    · intro hm
      have hprintable : closingMark.all fun v => 0x20 ≤ v.toNat ∧ v.toNat ≤ 0x7e := by decide
      have hrange : ¬ (0x20 ≤ u.toNat ∧ u.toNat ≤ 0x7e) := by
        simpa [UInt16.le_iff_toNat_le] using h₈
      have hmark := of_decide_eq_true (List.all_eq_true.mp hprintable _ hm)
      rw [toNat_lower] at hmark
      split at hmark <;> omega

lemma prefix_encoded_iff {mark : Utf16} (hm : mark ⊆ closingMark) (s t : Utf16) :
    mark <+: (ofText (s.flatMap encodeUnit) ++ unit '"' :: t).map lower ↔ mark <+: s.map lower := by
  have hquote : lower (unit '"') ∉ closingMark := by decide
  have hslash : lower (unit '\\') ∉ closingMark := by decide
  induction s generalizing mark with
  | nil =>
    cases mark with
    | nil => simp
    | cons v mark =>
      have hv : v ≠ lower (unit '"') := fun he => hquote (he ▸ hm List.mem_cons_self)
      simp [ofText, List.cons_prefix_cons, hv]
  | cons u s ih =>
    cases mark with
    | nil => simp
    | cons v mark =>
      have hrest := ih fun w hw => hm (List.mem_cons_of_mem v hw)
      rw [List.flatMap_cons, Utf16.ofText_append]
      rcases encodeUnit_cases u with he | ⟨rest, he, -, hu⟩
      · rw [he]
        simp only [List.cons_append, List.nil_append, List.map_cons, List.cons_prefix_cons, hrest]
      · have hv : v ≠ lower (unit '\\') := fun he => hslash (he ▸ hm List.mem_cons_self)
        have hv' : v ≠ lower u := fun he => hu (he ▸ hm List.mem_cons_self)
        simp [he, List.cons_prefix_cons, hv, hv']

lemma closings_literal (s t : Utf16) :
    closings (ofText (encode s) ++ t) = closings s + closings t := by
  have hunits : closings (ofText (s.flatMap encodeUnit) ++ unit '"' :: t) =
      closings s + closings t := by
    induction s with
    | nil =>
      have hquote := closings_append_of_notMem (s := [unit '"']) (by decide) t
      rw [closings, Nat.zero_add]
      exact hquote
    | cons u s ih =>
      have hmark := prefix_encoded_iff (List.Subset.refl closingMark) (u :: s) t
      rw [List.flatMap_cons, Utf16.ofText_append, List.append_assoc] at hmark ⊢
      rw [closings]
      rcases encodeUnit_cases u with he | ⟨rest, he, hrest, hu⟩
      · rw [he, List.singleton_append] at hmark ⊢
        have hhere := Bool.eq_iff_iff.mpr (closesAt_iff.trans (hmark.trans closesAt_iff.symm))
        rw [closings, hhere, ih, Nat.add_assoc]
      · have hno : ¬ closesAt (u :: s) = true := by
          intro hc
          rw [eq_of_closesAt hc] at hu
          exact hu (by decide)
        have hclean : unit '<' ∉ unit '\\' :: rest := by
          rw [List.mem_cons, not_or]
          exact ⟨by decide, hrest⟩
        rw [he, closings_append_of_notMem hclean, ih, if_neg hno, Nat.zero_add]
  have hencode : ofText (encode s) ++ t =
      [unit '"'] ++ (ofText (s.flatMap encodeUnit) ++ unit '"' :: t) := by
    rw [encode, List.cons_append, Utf16.ofText_cons_unit (by decide), Utf16.ofText_append,
      Utf16.ofText_cons_unit (by decide)]
    simp [ofText]
  rw [hencode, closings_append_of_notMem (by decide), hunits]

lemma closings_hook (settings : Settings) (t : Utf16) :
    closings (ofText (hook Fragment.boot settings) ++ t) =
      closings settings.rootId + closings t := by
  obtain ⟨before, after, hh, -, hbefore, hafter⟩ := hook_boot settings
  have hstart : unit '<' ∉ ofText (before ++ lookup) := by
    rw [Utf16.unit_mem_ofText_iff (by decide), List.mem_append, not_or]
    exact ⟨hbefore, by decide⟩
  have hend : unit '<' ∉ ofText after := by
    rwa [Utf16.unit_mem_ofText_iff (by decide)]
  rw [hh, Utf16.ofText_append (before ++ lookup), List.append_assoc,
    closings_append_of_notMem hstart, Utf16.ofText_append, List.append_assoc, closings_literal,
    closings_append_of_notMem hend]

lemma closings_escape (s t : Utf16) : closings (escape s ++ t) = closings t := by
  apply closings_append_of_notMem
  intro hm
  exact Text.Markup.ne_of_mem_escape hm (by decide) rfl

lemma closings_containers (found : List (Utf16 × Utf16)) (t : Utf16) :
    closings (found.flatMap writtenContainer ++ t) = closings t := by
  have hmark : Sealed containerMark ∧ closings containerMark = 0 := by decide
  have hname : Sealed nameEnd ∧ closings nameEnd = 0 := by decide
  induction found with
  | nil => rfl
  | cons c found ih =>
    rw [List.flatMap_cons, writtenContainer]
    simp only [List.append_assoc, closings_append hmark.1, hmark.2, closings_escape,
      closings_append_of_notMem (s := [unit '"']) (by decide), closings_append hname.1, hname.2,
      Nat.zero_add, ih]

def opening (catalog : Catalog) (settings : Settings) : Utf16 :=
  titleMark ++ (escape settings.title ++ (idMark ++ (escape settings.rootId ++ (idEnd ++
    ((catalog.names.map fun name => (settings.componentAttribute, name)).flatMap
      writtenContainer ++
    (containersEnd (catalog.names.map fun name => (settings.componentAttribute, name)) ++
      moduleMark ++ escape settings.moduleFilename))))))

def hookEnd : Utf16 := ofString "\n  </script>\n</body>\n</html>\n"

lemma text_eq_opening (catalog : Catalog) (settings : Settings) :
    text Fragment.boot catalog settings = opening catalog settings ++
      (hookMark ++ (ofText (hook Fragment.boot settings) ++ hookEnd)) := by
  rw [text_eq, opening, hookEnd, Utf16.ofText_append]
  simp only [List.append_assoc]
  rfl

lemma closings_opening (catalog : Catalog) (settings : Settings) (t : Utf16) :
    closings (opening catalog settings ++ t) = closings t := by
  have htitle : Sealed titleMark ∧ closings titleMark = 0 := by decide +kernel
  have hid : Sealed idMark ∧ closings idMark = 0 := by decide +kernel
  have hmodule : Sealed moduleMark ∧ closings moduleMark = 0 := by decide +kernel
  have hend : unit '<' ∉ containersEnd
      (catalog.names.map fun name => (settings.componentAttribute, name)) := by
    rw [containersEnd]
    split <;> decide
  rw [opening]
  simp only [List.append_assoc, closings_append htitle.1, htitle.2, closings_escape,
    closings_append hid.1, hid.2, closings_append_of_notMem (s := idEnd) (by decide),
    closings_containers, closings_append_of_notMem hend, closings_append hmodule.1, hmodule.2,
    Nat.zero_add]

lemma closings_hookMark : closings hookMark = 1 := by
  decide +kernel

lemma closings_hookEnd : closings hookEnd = 1 := by
  decide +kernel

lemma closings_text_eq (catalog : Catalog) (settings : Settings) :
    closings (text Fragment.boot catalog settings) = closings settings.rootId + 2 := by
  have hmark : Sealed hookMark := by decide +kernel
  rw [text_eq_opening, closings_opening, closings_append hmark, closings_hookMark, closings_hook,
    closings_hookEnd]
  omega

theorem closings_text (units : List SourceUnit) (settings : Settings) :
    ∃ before, text Fragment.boot (.ofUnits units) settings =
        before ++ (hookMark ++ (ofText (hook Fragment.boot settings) ++ hookEnd)) ∧
      closings before = 0 ∧ closings hookMark = 1 ∧ closings hookEnd = 1 ∧
      closings (ofText (hook Fragment.boot settings)) = closings settings.rootId ∧
      closings (text Fragment.boot (.ofUnits units) settings) = closings settings.rootId + 2 := by
  have hbefore := closings_opening (.ofUnits units) settings []
  have hhook := closings_hook settings []
  rw [List.append_nil] at hbefore hhook
  exact ⟨opening (.ofUnits units) settings, text_eq_opening _ settings, hbefore,
    closings_hookMark, closings_hookEnd, hhook, closings_text_eq _ settings⟩

def closingId : Settings := { rootId := ofString "</script>" }

theorem closings_text_closingId :
    closings (ofText (hook Fragment.boot closingId)) = 1 ∧
      closings (text Fragment.boot (.ofUnits []) closingId) = 3 := by
  have hid : closings closingId.rootId = 1 := by decide +kernel
  have hhook := closings_hook closingId []
  rw [List.append_nil, hid] at hhook
  exact ⟨hhook, by rw [closings_text_eq, hid]⟩

end ComponentCompiler.Document
