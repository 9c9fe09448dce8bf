import ComponentCompiler.Disk.File
import Mathlib.Data.List.Basic

/-! What a file holds after writing, and after later changes that keep all directories: a path leads
to the same place as long as the directories on its way are there. -/

namespace ComponentCompiler.Disk

lemma entry?_put_self (disk : Disk) {location : Location} (h : location ≠ []) (entry : Entry) :
    entry? (disk.put location entry) location = some entry := by
  obtain ⟨name, parent, rfl⟩ := List.exists_cons_of_ne_nil h
  exact Keyed.find?_put_self _ _ _

lemma entry?_put_of_ne (disk : Disk) {location other : Location} (h : other ≠ location)
    (entry : Entry) : entry? (disk.put location entry) other = disk.entry? other := by
  cases other with
  | nil => rfl
  | cons name parent => exact Keyed.find?_put_of_ne h _ _

structure Extends (disk later : Disk) : Prop where
  home : later.home = disk.home
  directory : ∀ location, disk.entry? location = some .directory →
    later.entry? location = some .directory

lemma Extends.trans {a b c : Disk} (hab : a.Extends b) (hbc : b.Extends c) : a.Extends c where
  home := hbc.home.trans hab.home
  directory location h := hbc.directory location (hab.directory location h)

lemma extends_put {disk : Disk} {location : Location} (h : disk.entry? location ≠ some .directory)
    (entry : Entry) : disk.Extends (disk.put location entry) where
  home := rfl
  directory other ho := by
    rw [entry?_put_of_ne disk _ entry, ho]
    rintro rfl
    exact h ho

lemma isDirectoryAt_iff {disk : Disk} {place : Place} :
    disk.isDirectoryAt place = true ↔ disk.entryAt? place = some .directory :=
  decide_eq_true_iff

lemma Extends.isDirectoryAt {disk later : Disk} (he : disk.Extends later) {place : Place}
    (h : disk.isDirectoryAt place = true) : later.isDirectoryAt place = true := by
  rw [isDirectoryAt_iff, entryAt?] at h ⊢
  split
  · next hl =>
    rw [if_pos hl] at h
    exact he.directory _ h
  · rfl

lemma step_eq_ok_iff {disk : Disk} {here there : Place} {s : Path.Step} :
    disk.step here s = .ok there ↔ disk.isDirectoryAt here = true ∧
      (s = .here ∧ there = here ∨ s = .up ∧ there = here.above ∨
        ∃ name location, s = .down name ∧ child here name = .ok location ∧
          (disk.entry? location).isSome ∧ there = ⟨location, 0⟩) := by
  rw [step.eq_def]
  cases hd : disk.isDirectoryAt here with
  | false => simp
  | true =>
    cases s with
    | here => simp [eq_comm (a := there)]
    | up => simp [eq_comm (a := there)]
    | down name =>
      cases hc : child here name with
      | error fault => simp [hc]
      | ok location => cases he : disk.entry? location <;> simp [hc, he, eq_comm (a := there)]

lemma isDirectoryAt_of_walk {disk : Disk} {here there : Place} {steps : List Path.Step}
    (h : disk.walk here steps = .ok there) (hd : disk.isDirectoryAt there = true) :
    disk.isDirectoryAt here = true := by
  cases steps with
  | nil =>
    cases h
    exact hd
  | cons s steps =>
    rw [walk] at h
    split at h
    · next hs => exact (step_eq_ok_iff.mp hs).1
    · cases h

lemma Extends.step {disk later : Disk} (he : disk.Extends later) {here there : Place}
    {s : Path.Step} (h : disk.step here s = .ok there) (hd : disk.isDirectoryAt there = true) :
    later.step here s = .ok there := by
  obtain ⟨hhere, hs⟩ := step_eq_ok_iff.mp h
  refine step_eq_ok_iff.mpr ⟨he.isDirectoryAt hhere, ?_⟩
  rcases hs with hs | hs | ⟨name, location, hs, hc, -, rfl⟩
  · exact Or.inl hs
  · exact Or.inr (Or.inl hs)
  · have hl := he.directory location (isDirectoryAt_iff.mp hd)
    exact Or.inr (Or.inr ⟨name, location, hs, hc, by rw [hl]; rfl, rfl⟩)

lemma Extends.walk {disk later : Disk} (he : disk.Extends later) {here there : Place}
    {steps : List Path.Step} (h : disk.walk here steps = .ok there)
    (hd : disk.isDirectoryAt there = true) : later.walk here steps = .ok there := by
  induction steps generalizing here with
  | nil => exact h
  | cons s steps ih =>
    rw [Disk.walk] at h
    split at h
    · next next hs =>
      rw [Disk.walk, he.step hs (isDirectoryAt_of_walk h hd)]
      exact ih h
    · cases h

lemma walk_append {disk : Disk} {here there : Place} {steps : List Path.Step}
    (h : disk.walk here steps = .ok there) (more : List Path.Step) :
    disk.walk here (steps ++ more) = disk.walk there more := by
  induction steps generalizing here with
  | nil =>
    cases h
    rfl
  | cons s steps ih =>
    rw [walk] at h
    split at h
    · next next hs =>
      rw [List.cons_append, walk, hs]
      exact ih h
    · cases h

/-- A path to a file leads to the file's location, whatever else has happened since. -/
structure LeadsTo (disk : Disk) (path : Utf16) (location : Location) : Prop where
  ne_nil : location ≠ []
  locate : ∀ later, disk.Extends later → (later.entry? location).isSome = true →
    later.locate path = .ok ⟨location, 0⟩

lemma child_eq_ok {here : Place} {name : Name} {location : Location}
    (h : child here name = .ok location) : location = name :: here.location := by
  rw [child] at h
  split at h
  · cases h
  split at h
  · cases h
  · exact (Except.ok.inj h).symm

lemma target_eq_ok {disk : Disk} {path : Utf16} {parent : Place} {name : Name}
    (h : disk.target path = .ok (parent, .down name)) :
    ∃ bytes before, pathBytes path = .ok bytes ∧ Path.steps bytes = before ++ [.down name] ∧
      disk.walk (disk.start path) before = .ok parent ∧ disk.isDirectoryAt parent = true := by
  rw [target] at h
  split at h
  · cases h
  · next bytes hb =>
    dsimp only at h
    split at h
    · cases h
    · next place hw =>
      split at h
      · next hd =>
        obtain ⟨rfl, hlast⟩ := Prod.mk.inj (Except.ok.inj h)
        refine ⟨bytes, (Path.steps bytes).dropLast, hb, ?_, hw, hd⟩
        cases hl : (Path.steps bytes).getLast? with
        | none =>
          rw [hl] at hlast
          cases hlast
        | some s =>
          rw [hl] at hlast
          obtain ⟨before, hs⟩ := List.getLast?_eq_some_iff.mp hl
          rw [hs, List.dropLast_concat, ← hlast]
          rfl
      · cases h

lemma walk_of_target {disk later : Disk} {path : Utf16} {parent : Place} {name : Name}
    {location : Location} (ht : disk.target path = .ok (parent, .down name))
    (hc : child parent name = .ok location) (he : disk.Extends later)
    (hl : (later.entry? location).isSome = true) :
    ∃ bytes, pathBytes path = .ok bytes ∧
      later.walk (later.start path) (Path.steps bytes) = .ok ⟨location, 0⟩ := by
  obtain ⟨bytes, before, hb, hs, hw, hd⟩ := target_eq_ok ht
  have hstart : later.start path = disk.start path := by
    rw [start, start, he.home]
  have hstep : later.step parent (.down name) = .ok ⟨location, 0⟩ :=
    step_eq_ok_iff.mpr ⟨he.isDirectoryAt hd, Or.inr (Or.inr ⟨name, location, rfl, hc, hl, rfl⟩)⟩
  refine ⟨bytes, hb, ?_⟩
  rw [hs, hstart, walk_append (he.walk hw hd), walk, hstep]
  rfl

lemma leadsTo_of_target {disk : Disk} {path : Utf16} {parent : Place} {name : Name}
    {location : Location} (ht : disk.target path = .ok (parent, .down name))
    (hslash : Path.endsInSlash path = false) (hc : child parent name = .ok location) :
    disk.LeadsTo path location where
  ne_nil := by
    rw [child_eq_ok hc]
    exact List.cons_ne_nil _ _
  locate later he hl := by
    obtain ⟨bytes, hb, hwalk⟩ := walk_of_target ht hc he hl
    rw [locate, hb]
    simp only [hslash, Bool.false_eq_true, if_false, List.append_nil, hwalk]
    rfl

lemma exists_target_of_write {disk later : Disk} {path : Utf16} {bytes : List UInt8}
    (h : disk.write path bytes = .ok later) :
    ∃ parent name location, disk.target path = .ok (parent, .down name) ∧
      Path.endsInSlash path = false ∧ child parent name = .ok location ∧
      disk.entry? location ≠ some .directory ∧ later = disk.put location (.file bytes) := by
  rw [write] at h
  split at h
  · cases h
  · next parent name ht =>
    split at h
    · cases h
    · next hslash =>
      split at h
      · cases h
      · next location hc =>
        split at h
        · cases h
        · next hd =>
          exact ⟨parent, name, location, ht, by simpa using hslash, hc, hd, (Except.ok.inj h).symm⟩
  · cases h

theorem write_eq_ok {disk later : Disk} {path : Utf16} {bytes : List UInt8}
    (h : disk.write path bytes = .ok later) :
    ∃ location, disk.LeadsTo path location ∧ disk.entry? location ≠ some .directory ∧
      later = disk.put location (.file bytes) := by
  obtain ⟨parent, name, location, ht, hslash, hc, hd, hlater⟩ := exists_target_of_write h
  exact ⟨location, leadsTo_of_target ht hslash hc, hd, hlater⟩

lemma LeadsTo.read {disk later : Disk} {path : Utf16} {location : Location} {bytes : List UInt8}
    (h : disk.LeadsTo path location) (he : disk.Extends later)
    (hf : later.entry? location = some (.file bytes)) : later.read path = .ok bytes := by
  have hl := h.locate later he (by rw [hf]; rfl)
  rw [Disk.read, hl]
  simp only [entryAt?, if_true, hf]

theorem read_of_writes {disk₁ disk₂ disk₃ : Disk} {path path' : Utf16} {bytes bytes' : List UInt8}
    (h : disk₁.write path bytes = .ok disk₂) (h' : disk₂.write path' bytes' = .ok disk₃) :
    disk₃.read path' = .ok bytes' ∧
      (disk₃.read path = .ok bytes ∨
        ∃ place, disk₃.locate path = .ok place ∧ disk₃.locate path' = .ok place) := by
  obtain ⟨location, hlead, hd, rfl⟩ := write_eq_ok h
  obtain ⟨location', hlead', hd', rfl⟩ := write_eq_ok h'
  have he := extends_put hd (.file bytes)
  have he' := extends_put hd' (.file bytes')
  have hf := entry?_put_self disk₁ hlead.ne_nil (.file bytes)
  have hf' := entry?_put_self (disk₁.put location (.file bytes)) hlead'.ne_nil (.file bytes')
  refine ⟨hlead'.read he' hf', ?_⟩
  by_cases hne : location = location'
  · subst hne
    have hsome := Option.isSome_of_mem hf'
    exact Or.inr ⟨⟨location, 0⟩, hlead.locate _ (he.trans he') hsome, hlead'.locate _ he' hsome⟩
  · refine Or.inl (hlead.read (he.trans he') ?_)
    rw [entry?_put_of_ne _ hne, hf]

end ComponentCompiler.Disk
