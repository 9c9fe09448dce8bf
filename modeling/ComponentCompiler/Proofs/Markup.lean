import ComponentCompiler.Proofs.Reading
import ComponentCompiler.Artifact.Document

/-! Escaped text never holds the characters that end an attribute or an element's content, and its
references lead back to the text. -/

namespace ComponentCompiler.Text.Markup

open Reading (many many_flatMap)
open Utf16 (ofString unit)

def references : List (Utf16 × UInt16) :=
  [(ofString "&amp;", unit '&'), (ofString "&lt;", unit '<'), (ofString "&gt;", unit '>'),
    (ofString "&quot;", unit '"'), (ofString "&#x27;", unit '\x27')]

def reference? (s : Utf16) : Option (UInt16 × Utf16) :=
  references.findSome? fun (reference, u) => (s.dropPrefix? reference).map fun rest => (u, rest)

def next? (s : Utf16) : Option (UInt16 × Utf16) :=
  match reference? s with
  | some found => some found
  | none => s.head?.map fun u => (u, s.tail)

def unescape (s : Utf16) : Utf16 :=
  (many next? s).1

lemma escapeUnit_cases (u : UInt16) :
    (escapeUnit u, u) ∈ references ∨ escapeUnit u = [u] ∧ ∀ r ∈ references, u ≠ r.2 := by
  rw [escapeUnit]
  split_ifs with h₁ h₂ h₃ h₄ h₅ <;> simp_all [references]

-- No reference begins with another one, so at most one of them can stand at a place.
lemma references_prefixFree : ∀ r ∈ references, ∀ r' ∈ references, r.1 <+: r'.1 → r = r' := by
  decide

lemma reference?_append {r : Utf16 × UInt16} (hr : r ∈ references) (s : Utf16) :
    reference? (r.1 ++ s) = some (r.2, s) := by
  obtain ⟨before, after, he, hn⟩ := List.eq_append_cons_of_mem hr
  refine List.findSome?_eq_some_iff.mpr ⟨before, r, after, he, by simp, ?_⟩
  intro r' hr'
  have hm : r' ∈ references := by simp [he, hr']
  cases hd : (r.1 ++ s).dropPrefix? r'.1 with
  | none => simp [hd]
  | some rest =>
    obtain ⟨p, hp, hb⟩ := List.dropPrefix?_eq_some_iff.mp hd
    obtain rfl : p = r'.1 := by simpa using hb
    have hpre : r'.1 <+: r.1 ++ s := ⟨rest, hp.symm⟩
    have heq : r' = r := by
      rcases List.prefix_or_prefix_of_prefix hpre (List.prefix_append r.1 s) with h | h
      · exact references_prefixFree r' hm r hr h
      · exact (references_prefixFree r hr r' hm h).symm
    exact (hn (heq ▸ hr')).elim

lemma reference?_cons {u : UInt16} (h : u ≠ unit '&') (s : Utf16) : reference? (u :: s) = none := by
  have hhead : ∀ r ∈ references, r.1.head? = some (unit '&') := by decide
  refine List.findSome?_eq_none_iff.mpr ?_
  intro r hr
  obtain ⟨name, hname⟩ := List.head?_eq_some_iff.mp (hhead r hr)
  simp [hname, List.dropPrefix?, h]

lemma next?_escapeUnit (u : UInt16) (s : Utf16) : next? (escapeUnit u ++ s) = some (u, s) := by
  rcases escapeUnit_cases u with h | ⟨he, hu⟩
  · rw [next?, reference?_append h]
  · have hamp : u ≠ unit '&' := hu (ofString "&amp;", unit '&') (by simp [references])
    rw [he, List.singleton_append, next?, reference?_cons hamp]
    rfl

lemma escapeUnit_ne_nil (u : UInt16) : escapeUnit u ≠ [] := by
  have hr : ∀ r ∈ references, r.1 ≠ [] := by decide
  rcases escapeUnit_cases u with h | ⟨he, _⟩
  · exact hr _ h
  · simp [he]

@[simp] lemma unescape_escape (s : Utf16) : unescape (escape s) = s := by
  have h := many_flatMap escapeUnit next?_escapeUnit escapeUnit_ne_nil (by rfl : next? [] = none) s
  rw [List.append_nil] at h
  rw [unescape, escape, h]

def stops : List UInt16 := [unit '<', unit '>', unit '"', unit '\x27']

lemma ne_of_mem_escape {u v : UInt16} {s : Utf16} (hu : u ∈ escape s) (hv : v ∈ stops) : u ≠ v := by
  have hr : references.all (fun r => r.1.all fun x => stops.all fun v => x ≠ v) = true := by decide
  have hs : stops.all (fun v => references.any fun r => r.2 = v) = true := by decide
  simp only [List.all_eq_true, List.any_eq_true, decide_eq_true_eq] at hr hs
  obtain ⟨w, _, hw⟩ := List.mem_flatMap.mp hu
  rcases escapeUnit_cases w with h | ⟨he, hn⟩
  · exact hr _ h u hw v hv
  · obtain rfl : u = w := by simpa [he] using hw
    obtain ⟨r, hrm, rfl⟩ := hs v hv
    exact hn r hrm

def field (stop : UInt16) (s : Utf16) : Utf16 × Utf16 :=
  (unescape (s.takeWhile (· ≠ stop)), s.dropWhile (· ≠ stop))

lemma field_escape {stop : UInt16} (hstop : stop ∈ stops) (value : Utf16) {s : Utf16}
    (hs : s.head? = some stop) : field stop (escape value ++ s) = (value, s) := by
  obtain ⟨rest, rfl⟩ := List.head?_eq_some_iff.mp hs
  have hne : ∀ u ∈ escape value, decide (u ≠ stop) = true := by
    intro u hu
    simpa using ne_of_mem_escape hu hstop
  rw [field, List.takeWhile_append_of_pos hne, List.dropWhile_append_of_pos hne]
  simp

end ComponentCompiler.Text.Markup
