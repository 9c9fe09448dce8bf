import ComponentCompiler.Discovery
import ComponentCompiler.Proofs.Bytes
import Mathlib.Data.List.Nodup

/-! Discovery keeps the source units apart: a directory lists each name once, and two files that end
in the suffix never give the same component name. -/

namespace ComponentCompiler

namespace Utf16

lemma eq_append_of_points {s a : Utf16} {before : List Point} (h : s.points = before ++ a.points) :
    s = before.flatMap spelling ++ a := by
  rw [← flatMap_spelling_points s, h, List.flatMap_append, flatMap_spelling_points]

lemma eq_append_of_endsIn {ending s : Utf16} (h : endsIn ending s = true) :
    ∃ stem, s = stem ++ ending := by
  obtain ⟨before, hs⟩ := List.isSuffixOf_iff_suffix.mp h
  exact ⟨_, eq_append_of_points hs.symm⟩

end Utf16

namespace Disk

lemma nodup_namesAt (disk : Disk) (location : Location) : (disk.namesAt location).Nodup := by
  refine List.Nodup.filterMap ?_ disk.nodup
  intro a a' name ha ha'
  cases a with
  | nil => cases ha
  | cons n parent =>
    cases a' with
    | nil => cases ha'
    | cons n' parent' =>
      simp only [Option.mem_def, Option.ite_none_right_eq_some, Option.some.injEq] at ha ha'
      rw [ha.1, ha.2, ha'.1, ha'.2]

theorem nodup_of_list {disk : Disk} {path : Utf16} {names : List Utf16}
    (h : disk.list path = .ok names) : names.Nodup := by
  rw [list] at h
  split at h
  · cases h
  split at h
  · cases h
  split at h
  · cases h
    exact List.nodup_nil
  · cases h
    exact (disk.nodup_namesAt _).map Name.text_injective

lemma exists_name_of_list {disk : Disk} {path filename : Utf16} {names : List Utf16}
    (h : disk.list path = .ok names) (hm : filename ∈ names) :
    ∃ name : Name, filename = name.text := by
  rw [list] at h
  split at h
  · cases h
  · split at h
    · cases h
    · split at h
      · cases h
        cases hm
      · cases h
        obtain ⟨name, -, rfl⟩ := List.mem_map.mp hm
        exact ⟨name, rfl⟩

lemma ne_nil_of_list {disk : Disk} {path : Utf16} {names : List Utf16}
    (h : disk.list path = .ok names) : path ≠ [] := by
  rintro rfl
  cases h

end Disk

namespace Discovery

lemma componentName_append {suffix filename : Utf16} (h : Utf16.endsIn suffix filename = true) :
    componentName suffix filename ++ suffix = filename := by
  obtain ⟨stem, rfl⟩ := Utf16.eq_append_of_endsIn h
  rw [componentName, if_pos h, List.length_append, Nat.add_sub_cancel, List.take_left]

lemma componentName_of_points {suffix name filename : Utf16}
    (h : filename.points = name.points ++ suffix.points) :
    Utf16.endsIn suffix filename = true ∧ componentName suffix filename = name := by
  have he : Utf16.endsIn suffix filename = true := List.isSuffixOf_iff_suffix.mpr ⟨_, h.symm⟩
  refine ⟨he, (List.append_left_inj suffix).mp ?_⟩
  rw [componentName_append he, Utf16.eq_append_of_points h, Utf16.flatMap_spelling_points]

theorem order_perm (suffix entryName : Utf16) (names : List Utf16) :
    (order suffix entryName names).Perm (names.filter (Utf16.endsIn suffix)) := by
  refine List.Perm.trans (List.Perm.append_left _ (List.mergeSort_perm _ _)) ?_
  have h := List.filter_append_perm (fun f => decide (componentName suffix f = entryName))
    (names.filter (Utf16.endsIn suffix))
  simpa using h

theorem nodup_componentName_order {names : List Utf16} (h : names.Nodup)
    (suffix entryName : Utf16) :
    ((order suffix entryName names).map (componentName suffix)).Nodup := by
  have hperm := order_perm suffix entryName names
  refine List.Nodup.map_on ?_ (hperm.nodup_iff.mpr (h.filter _))
  intro f hf g hg hfg
  have hf' := (List.mem_filter.mp (hperm.mem_iff.mp hf)).2
  have hg' := (List.mem_filter.mp (hperm.mem_iff.mp hg)).2
  rw [← componentName_append hf', ← componentName_append hg', hfg]

theorem head?_componentName_order {suffix entryName filename : Utf16} {names : List Utf16}
    (hm : filename ∈ names) (h : filename.points = entryName.points ++ suffix.points) :
    ((order suffix entryName names).map (componentName suffix)).head? = some entryName := by
  obtain ⟨he, hn⟩ := componentName_of_points h
  have hentry : filename ∈ (names.filter (Utf16.endsIn suffix)).filter
      (componentName suffix · = entryName) := by
    simp [hm, he, hn]
  obtain ⟨f, fs, hfs⟩ := List.exists_cons_of_ne_nil (List.ne_nil_of_mem hentry)
  have hf : componentName suffix f = entryName := by
    have hmem := List.mem_filter.mp (hfs ▸ List.mem_cons_self (a := f) (l := fs))
    simpa using hmem.2
  rw [order, hfs, List.cons_append, List.map_cons, List.head?_cons, hf]

lemma order_append {suffix entryName : Utf16} {names extra : List Utf16}
    (h : ∀ name ∈ extra, Utf16.endsIn suffix name = false) :
    order suffix entryName (names ++ extra) = order suffix entryName names := by
  have hextra : extra.filter (Utf16.endsIn suffix) = [] := by
    rw [List.filter_eq_nil_iff]
    intro name hm
    simp [h name hm]
  simp only [order, List.filter_append, hextra, List.append_nil]

lemma sources_eq_ok {disk : Disk} {directory suffix entryName : Utf16} {filenames : List Utf16}
    (h : sources disk directory suffix entryName = .ok filenames) :
    ∃ listing, disk.list directory = .ok listing ∧ filenames = order suffix entryName listing := by
  rw [sources] at h
  split at h
  · next listing hl => exact ⟨listing, hl, (Except.ok.inj h).symm⟩
  · cases h

end Discovery

end ComponentCompiler
