import ComponentCompiler.Disk.Directory
import ComponentCompiler.Proofs.DiskWriting

/-! What the operations on a disk leave as it is. Making directories and writing files removes
nothing, changes no file but the one written, and adds nothing but what the path names. -/

namespace ComponentCompiler

namespace Path

end Path

namespace Disk

structure Keeps (disk later : Disk) : Prop extends disk.Extends later where
  file : ∀ location bytes, disk.entry? location = some (.file bytes) →
    ∃ bytes', later.entry? location = some (.file bytes')

lemma Keeps.isSome {disk later : Disk} (h : disk.Keeps later) {location : Location}
    (hs : (disk.entry? location).isSome = true) : (later.entry? location).isSome = true := by
  obtain ⟨entry, he⟩ := Option.isSome_iff_exists.mp hs
  cases entry with
  | directory => rw [h.directory location he]; rfl
  | file bytes =>
    obtain ⟨bytes', hf⟩ := h.file location bytes he
    rw [hf]
    rfl

lemma Keeps.step {disk later : Disk} (h : disk.Keeps later) {here there : Place} {s : Path.Step}
    (hs : disk.step here s = .ok there) : later.step here s = .ok there := by
  obtain ⟨hd, hs⟩ := step_eq_ok_iff.mp hs
  refine step_eq_ok_iff.mpr ⟨h.isDirectoryAt hd, ?_⟩
  rcases hs with hs | hs | ⟨name, location, hs, hc, he, ht⟩
  · exact Or.inl hs
  · exact Or.inr (Or.inl hs)
  · exact Or.inr (Or.inr ⟨name, location, hs, hc, h.isSome he, ht⟩)

lemma Keeps.walk {disk later : Disk} (h : disk.Keeps later) {here there : Place}
    {steps : List Path.Step} (hw : disk.walk here steps = .ok there) :
    later.walk here steps = .ok there := by
  induction steps generalizing here with
  | nil => exact hw
  | cons s steps ih =>
    rw [Disk.walk] at hw
    split at hw
    · next mid hs =>
      rw [Disk.walk, h.step hs]
      exact ih hw
    · cases hw

lemma locate_eq_ok_iff {disk : Disk} {path : Utf16} {place : Place} :
    disk.locate path = .ok place ↔ ∃ bytes, pathBytes path = .ok bytes ∧
      disk.walk (disk.start path)
        (Path.steps bytes ++ if Path.endsInSlash path then [.here] else []) = .ok place := by
  rw [locate]
  cases pathBytes path with
  | error e => simp
  | ok bytes =>
    cases hw : disk.walk (disk.start path)
        (Path.steps bytes ++ if Path.endsInSlash path then [.here] else []) with
    | error fault => simp [hw, Except.mapError]
    | ok there => simp [hw, Except.mapError]

lemma exists_walk_of_append {disk : Disk} {here there : Place} {steps more : List Path.Step}
    (h : disk.walk here (steps ++ more) = .ok there) :
    ∃ mid, disk.walk here steps = .ok mid ∧ disk.walk mid more = .ok there := by
  induction steps generalizing here with
  | nil => exact ⟨here, rfl, h⟩
  | cons s steps ih =>
    rw [List.cons_append, walk] at h
    split at h
    · next next hs =>
      obtain ⟨mid, hw, hm⟩ := ih h
      exact ⟨mid, by rw [walk, hs]; exact hw, hm⟩
    · cases h

lemma walk_concat {disk : Disk} {here there : Place} {before : List Path.Step} {s : Path.Step}
    (h : disk.walk here (before ++ [s]) = .ok there) :
    ∃ mid, disk.walk here before = .ok mid ∧ disk.step mid s = .ok there := by
  obtain ⟨mid, hb, hs⟩ := exists_walk_of_append h
  rw [walk] at hs
  split at hs
  · next hstep =>
    cases hs
    exact ⟨mid, hb, hstep⟩
  · cases hs

lemma locate_eq_ok_iff_walk {disk : Disk} {path : Utf16} {place : Place} :
    disk.locate path = .ok place ↔ ∃ bytes, pathBytes path = .ok bytes ∧
      disk.walk (disk.start path) (Path.steps bytes) = .ok place ∧
      (Path.endsInSlash path = true → disk.isDirectoryAt place = true) := by
  rw [locate_eq_ok_iff]
  refine exists_congr fun bytes => and_congr_right fun _ => ?_
  cases Path.endsInSlash path with
  | false => simp
  | true =>
    constructor
    · intro h
      obtain ⟨mid, hm, hs⟩ := walk_concat h
      obtain ⟨hd, ⟨-, rfl⟩ | ⟨hs, -⟩ | ⟨_, _, hs, -⟩⟩ := step_eq_ok_iff.mp hs
      · exact ⟨hm, fun _ => hd⟩
      · cases hs
      · cases hs
    · rintro ⟨hw, hd⟩
      rw [walk_append hw]
      simp [walk, step, hd rfl]

lemma Keeps.locate {disk later : Disk} (h : disk.Keeps later) {path : Utf16} {place : Place}
    (hl : disk.locate path = .ok place) : later.locate path = .ok place := by
  obtain ⟨bytes, hb, hw⟩ := locate_eq_ok_iff.mp hl
  refine locate_eq_ok_iff.mpr ⟨bytes, hb, ?_⟩
  have hstart : later.start path = disk.start path := by
    rw [start, start, h.home]
  rw [hstart]
  exact h.walk hw

lemma has_iff {disk : Disk} {path : Utf16} :
    disk.has path = true ↔ ∃ place, disk.locate path = .ok place := by
  rw [has]
  cases disk.locate path <;> simp [Except.isOk, Except.toBool]

lemma has_of_read {disk : Disk} {path : Utf16} {bytes : List UInt8}
    (h : disk.read path = .ok bytes) : disk.has path = true := by
  rw [read] at h
  split at h
  · cases h
  · next place hl => exact has_iff.mpr ⟨place, hl⟩

def object? (disk : Disk) (path : Utf16) : Option Entry :=
  match disk.locate path with
  | .ok place => disk.entryAt? place
  | .error _ => none

lemma object?_of_locate {disk : Disk} {path : Utf16} {location : Location}
    (h : disk.locate path = .ok ⟨location, 0⟩) : disk.object? path = disk.entry? location := by
  rw [object?, h]
  rfl

lemma object?_eq_some_iff {disk : Disk} {path : Utf16} {entry : Entry} :
    disk.object? path = some entry ↔
      ∃ place, disk.locate path = .ok place ∧ disk.entryAt? place = some entry := by
  rw [object?]
  cases disk.locate path <;> simp

lemma Keeps.object?_directory {disk later : Disk} (h : disk.Keeps later) {path : Utf16}
    (ho : disk.object? path = some .directory) : later.object? path = some .directory := by
  obtain ⟨place, hl, hd⟩ := object?_eq_some_iff.mp ho
  refine object?_eq_some_iff.mpr ⟨place, h.locate hl, ?_⟩
  rw [← isDirectoryAt_iff] at hd ⊢
  exact h.isDirectoryAt hd

lemma Keeps.object?_file {disk later : Disk} (h : disk.Keeps later) {path : Utf16}
    {bytes : List UInt8} (ho : disk.object? path = some (.file bytes)) :
    ∃ bytes', later.object? path = some (.file bytes') := by
  obtain ⟨place, hl, hf⟩ := object?_eq_some_iff.mp ho
  rw [entryAt?] at hf
  split at hf
  · next hlost =>
    obtain ⟨bytes', hf'⟩ := h.file _ _ hf
    refine ⟨bytes', object?_eq_some_iff.mpr ⟨place, h.locate hl, ?_⟩⟩
    rw [entryAt?, if_pos hlost, hf']
  · cases hf

structure IsTree (disk : Disk) : Prop where
  home : disk.entry? disk.home.location = some .directory
  parent : ∀ name location, (disk.entry? (name :: location)).isSome = true →
    disk.entry? location = some .directory

lemma isSome_entry?_iff {disk : Disk} {location : Location} (h : location ≠ []) :
    (disk.entry? location).isSome = true ↔ location ∈ disk.entries.keys := by
  obtain ⟨name, above, rfl⟩ := List.exists_cons_of_ne_nil h
  rw [← not_iff_not, Bool.not_eq_true, Option.isSome_eq_false_iff, Option.isNone_iff_eq_none]
  exact Keyed.find?_eq_none_iff

lemma isTree_iff {disk : Disk} : disk.IsTree ↔
    disk.entry? disk.home.location = some .directory ∧
      ∀ location ∈ disk.entries.keys, location ≠ [] →
        disk.entry? location.tail = some .directory := by
  constructor
  · intro h
    refine ⟨h.home, fun location hm hn => ?_⟩
    obtain ⟨name, above, rfl⟩ := List.exists_cons_of_ne_nil hn
    exact h.parent name above ((isSome_entry?_iff hn).mpr hm)
  · rintro ⟨hhome, hparent⟩
    refine ⟨hhome, fun name location hs => ?_⟩
    have hn : name :: location ≠ [] := List.cons_ne_nil name location
    exact hparent (name :: location) ((isSome_entry?_iff hn).mp hs) hn

instance (disk : Disk) : Decidable disk.IsTree :=
  decidable_of_iff _ isTree_iff.symm

lemma IsTree.put {disk : Disk} (h : disk.IsTree) {name : Name} {location : Location}
    (hd : disk.entry? location = some .directory)
    (hn : disk.entry? (name :: location) ≠ some .directory) (entry : Entry) :
    IsTree (disk.put (name :: location) entry) where
  home := by
    refine (entry?_put_of_ne disk ?_ entry).trans h.home
    intro he
    exact hn (he ▸ h.home)
  parent name' location' hs := by
    have hdir : disk.entry? location' = some .directory := by
      by_cases he : name' :: location' = name :: location
      · obtain ⟨rfl, rfl⟩ := List.cons.inj he
        exact hd
      · rw [entry?_put_of_ne disk he] at hs
        exact h.parent name' location' hs
    rw [entry?_put_of_ne disk _ entry, hdir]
    rintro rfl
    exact hn hdir

/-- The later disk differs from the earlier one only in new directories at the ends of some paths
and in files at the ends of others. -/
structure Changes (directories files : List Utf16) (disk later : Disk) : Prop where
  home : later.home = disk.home
  tree : disk.IsTree → later.IsTree
  entry : ∀ location, later.entry? location = disk.entry? location ∨
    (disk.entry? location = none ∧ later.entry? location = some .directory ∧
      ∃ p ∈ directories, later.locate p = .ok ⟨location, 0⟩) ∨
    (disk.entry? location ≠ some .directory ∧
      (∃ bytes, later.entry? location = some (.file bytes)) ∧
      ∃ p ∈ files, later.locate p = .ok ⟨location, 0⟩)

namespace Changes

variable {directories files : List Utf16} {disk mid later : Disk}

lemma refl (directories files : List Utf16) (disk : Disk) :
    Changes directories files disk disk where
  home := rfl
  tree := id
  entry _ := Or.inl rfl

lemma keeps (h : Changes directories files disk later) : disk.Keeps later where
  home := h.home
  directory location hd := by
    rcases h.entry location with he | ⟨hn, -⟩ | ⟨hn, -⟩
    · rw [he, hd]
    · cases hn.symm.trans hd
    · exact (hn hd).elim
  file location bytes hf := by
    rcases h.entry location with he | ⟨hn, -⟩ | ⟨-, hb, -⟩
    · exact ⟨bytes, he.trans hf⟩
    · cases hn.symm.trans hf
    · exact hb

lemma mono {directories' files' : List Utf16} (h : Changes directories files disk later)
    (hd : directories ⊆ directories') (hf : files ⊆ files') :
    Changes directories' files' disk later where
  home := h.home
  tree := h.tree
  entry location := by
    rcases h.entry location with he | ⟨hn, he, p, hp, hl⟩ | ⟨hn, hb, p, hp, hl⟩
    · exact Or.inl he
    · exact Or.inr (Or.inl ⟨hn, he, p, hd hp, hl⟩)
    · exact Or.inr (Or.inr ⟨hn, hb, p, hf hp, hl⟩)

lemma trans (h : Changes directories files disk mid) (h' : Changes directories files mid later) :
    Changes directories files disk later where
  home := h'.home.trans h.home
  tree ht := h'.tree (h.tree ht)
  entry location := by
    rcases h'.entry location with he' | ⟨hn', he', hp'⟩ | ⟨hn', hb', hp'⟩
    · -- What the first change did is still there, and its path still leads there.
      rcases h.entry location with he | ⟨hn, he, p, hp, hl⟩ | ⟨hn, hb, p, hp, hl⟩
      · exact Or.inl (he'.trans he)
      · exact Or.inr (Or.inl ⟨hn, he'.trans he, p, hp, h'.keeps.locate hl⟩)
      · exact Or.inr (Or.inr ⟨hn, he' ▸ hb, p, hp, h'.keeps.locate hl⟩)
    · refine Or.inr (Or.inl ⟨?_, he', hp'⟩)
      rcases h.entry location with he | ⟨-, he, -⟩ | ⟨-, ⟨bytes, hb⟩, -⟩
      · exact he.symm.trans hn'
      · cases hn'.symm.trans he
      · cases hn'.symm.trans hb
    · refine Or.inr (Or.inr ⟨?_, hb', hp'⟩)
      intro hd
      exact hn' (h.keeps.directory location hd)

end Changes

lemma directory_of_child {disk : Disk} {parent : Place} {name : Name} {location : Location}
    (hd : disk.isDirectoryAt parent = true) (hc : child parent name = .ok location) :
    location = name :: parent.location ∧ disk.entry? parent.location = some .directory := by
  refine ⟨child_eq_ok hc, ?_⟩
  have hlost : parent.lost = 0 := by
    by_contra hn
    rw [child, if_pos hn] at hc
    cases hc
  rwa [isDirectoryAt_iff, entryAt?, if_pos hlost] at hd

lemma changes_put {disk : Disk} {path : Utf16} {parent : Place} {name : Name} {location : Location}
    {directories files : List Utf16} {entry : Entry}
    (ht : disk.target path = .ok (parent, .down name)) (hc : child parent name = .ok location)
    (hn : disk.entry? location ≠ some .directory)
    (hentry : entry = .directory ∧ disk.entry? location = none ∧ path ∈ directories ∨
      (∃ bytes, entry = .file bytes) ∧ Path.endsInSlash path = false ∧ path ∈ files) :
    Changes directories files disk (disk.put location entry) := by
  obtain ⟨bytes, before, hb, hs, hw, hd⟩ := target_eq_ok ht
  obtain ⟨rfl, hparent⟩ := directory_of_child hd hc
  have hself := entry?_put_self disk (List.cons_ne_nil name parent.location) entry
  obtain ⟨bytes', hb', hwalk⟩ := walk_of_target ht hc (extends_put hn entry) (by rw [hself]; rfl)
  refine ⟨rfl, fun htree => htree.put hparent hn entry, fun other => ?_⟩
  by_cases ho : other = name :: parent.location
  · subst ho
    right
    rcases hentry with ⟨rfl, hnone, hp⟩ | ⟨⟨content, rfl⟩, hslash, hp⟩
    · refine Or.inl ⟨hnone, hself, path, hp, locate_eq_ok_iff_walk.mpr ⟨bytes', hb', hwalk, ?_⟩⟩
      exact fun _ => isDirectoryAt_iff.mpr hself
    · refine Or.inr ⟨hn, ⟨content, hself⟩, path, hp, ?_⟩
      exact locate_eq_ok_iff_walk.mpr ⟨bytes', hb', hwalk, by simp [hslash]⟩
  · exact Or.inl (entry?_put_of_ne disk ho entry)

lemma makeDirectory_changes {disk later : Disk} {path : Utf16}
    (h : disk.makeDirectory path = .ok later) : Changes [path] [] disk later := by
  rw [makeDirectory] at h
  split at h
  · cases h
  · next parent name ht =>
    split at h
    · cases h
    · next location hc =>
      split at h
      · cases h
      · next hnone =>
        obtain rfl := Except.ok.inj h
        have hnone : disk.entry? location = none := by simpa using hnone
        apply changes_put ht hc (by simp [hnone])
        exact Or.inl ⟨rfl, hnone, by simp⟩
  · cases h

lemma ensureBelow_relates {R : Disk → Disk → Prop} (hrefl : ∀ disk, R disk disk)
    (htrans : ∀ {a b c}, R a b → R b c → R a c) {path : Utf16} {above : List Utf16}
    (hmake : ∀ p ∈ path :: above, ∀ disk later, disk.makeDirectory p = .ok later → R disk later)
    (disk : Disk) : R disk (disk.ensureBelow path above).1 := by
  have hensure : ∀ p ∈ path :: above, ∀ d : Disk, R d (d.ensureDirectory p).1 := by
    intro p hp d
    rw [ensureDirectory]
    split
    · next hm => exact hmake p hp d _ hm
    · split <;> exact hrefl d
    · exact hrefl d
  induction above generalizing path with
  | nil => exact hensure path List.mem_cons_self disk
  | cons parent above ih =>
    have hpath := hensure path List.mem_cons_self
    have hparent := ih (fun p hp => hmake p (List.mem_cons_of_mem _ hp))
      (fun p hp => hensure p (List.mem_cons_of_mem _ hp))
    rw [ensureBelow]
    split
    · exact hpath disk
    · generalize disk.ensureBelow parent above = made at hparent ⊢
      split
      · split
        · exact hparent
        · exact htrans hparent (hpath _)
      · split
        · exact hparent
        · exact htrans hparent (hpath _)
      · exact hparent

lemma ensureDirectories_changes (disk : Disk) (path : Utf16) :
    Changes (path :: Path.ancestors path) [] disk (disk.ensureDirectories path).1 := by
  refine ensureBelow_relates (Changes.refl _ _) Changes.trans ?_ disk
  intro p hp d later hm
  exact (makeDirectory_changes hm).mono (by simpa using hp) (List.Subset.refl _)

lemma write_changes {disk later : Disk} {path : Utf16} {bytes : List UInt8}
    (h : disk.write path bytes = .ok later) : Changes [] [path] disk later := by
  obtain ⟨parent, name, location, ht, hslash, hc, hn, rfl⟩ := exists_target_of_write h
  apply changes_put ht hc hn
  exact Or.inr ⟨⟨bytes, rfl⟩, hslash, by simp⟩

lemma object?_of_write {disk later : Disk} {path : Utf16} {bytes : List UInt8}
    (h : disk.write path bytes = .ok later) : later.object? path = some (.file bytes) := by
  obtain ⟨location, hlead, hd, rfl⟩ := write_eq_ok h
  have hf := entry?_put_self disk hlead.ne_nil (.file bytes)
  rw [object?_of_locate (hlead.locate _ (extends_put hd _) (by rw [hf]; rfl)), hf]

def Anchored (disk : Disk) (place : Place) : Prop :=
  place.lost ≠ 0 → disk.entry? place.location = some .directory

lemma Anchored.step {disk : Disk} {here there : Place} {s : Path.Step} (ha : disk.Anchored here)
    (h : disk.step here s = .ok there) : disk.Anchored there := by
  obtain ⟨-, ⟨-, rfl⟩ | ⟨-, rfl⟩ | ⟨-, location, -, -, -, rfl⟩⟩ := step_eq_ok_iff.mp h
  · exact ha
  · obtain ⟨location, lost⟩ := here
    cases lost with
    | zero => exact fun hn => (hn rfl).elim
    | succ lost => exact fun _ => ha (Nat.succ_ne_zero lost)
  · exact fun hn => (hn rfl).elim

lemma Anchored.walk {disk : Disk} {here there : Place} {steps : List Path.Step}
    (ha : disk.Anchored here) (h : disk.walk here steps = .ok there) : disk.Anchored there := by
  induction steps generalizing here with
  | nil =>
    cases h
    exact ha
  | cons s steps ih =>
    rw [Disk.walk] at h
    split at h
    · next mid hs => exact ih (ha.step hs) h
    · cases h

lemma IsTree.anchored_start {disk : Disk} (h : disk.IsTree) (path : Utf16) :
    disk.Anchored (disk.start path) := by
  rw [start]
  split
  · exact fun _ => rfl
  · exact fun _ => h.home

lemma IsTree.isDirectoryAt_start {disk : Disk} (h : disk.IsTree) (path : Utf16) :
    disk.isDirectoryAt (disk.start path) = true := by
  rw [isDirectoryAt_iff, entryAt?, start]
  split
  · split <;> rfl
  · split
    · exact h.home
    · rfl

lemma IsTree.isDirectoryAt_above {disk : Disk} (h : disk.IsTree) {here : Place}
    (ha : disk.Anchored here) (hd : disk.isDirectoryAt here = true) :
    disk.isDirectoryAt here.above = true := by
  obtain ⟨location, lost⟩ := here
  rw [isDirectoryAt_iff] at hd ⊢
  cases lost with
  | zero =>
    cases location with
    | nil => rfl
    | cons name location =>
      have hentry : disk.entry? (name :: location) = some .directory := hd
      exact h.parent name location (by rw [hentry]; rfl)
  | succ lost =>
    rw [Place.above, entryAt?]
    split
    · exact ha (Nat.succ_ne_zero lost)
    · rfl

lemma IsTree.step_to_file {disk : Disk} (h : disk.IsTree) {here there : Place} {s : Path.Step}
    (ha : disk.Anchored here) (hs : disk.step here s = .ok there)
    (hn : disk.isDirectoryAt there = false) :
    ∃ name location, s = .down name ∧ child here name = .ok location ∧ there = ⟨location, 0⟩ := by
  obtain ⟨hd, ⟨-, rfl⟩ | ⟨-, rfl⟩ | ⟨name, location, hdown, hc, -, ht⟩⟩ := step_eq_ok_iff.mp hs
  · simp [hd] at hn
  · simp [h.isDirectoryAt_above ha hd] at hn
  · exact ⟨name, location, hdown, hc, ht⟩

lemma IsTree.exists_write {disk : Disk} (h : disk.IsTree) {path : Utf16} {content : List UInt8}
    (ho : disk.object? path = some (.file content)) (bytes : List UInt8) :
    ∃ later, disk.write path bytes = .ok later := by
  obtain ⟨place, hl, hf⟩ := object?_eq_some_iff.mp ho
  obtain ⟨units, hb, hw⟩ := locate_eq_ok_iff.mp hl
  have hn : disk.isDirectoryAt place = false := by
    rw [Bool.eq_false_iff, ne_eq, isDirectoryAt_iff, hf]
    simp
  have hslash : Path.endsInSlash path = false := by
    rw [Bool.eq_false_iff]
    intro hslash
    rw [if_pos hslash] at hw
    obtain ⟨mid, hmid, hs⟩ := walk_concat hw
    obtain ⟨_, _, hdown, -⟩ := h.step_to_file ((h.anchored_start path).walk hmid) hs hn
    cases hdown
  rw [hslash, if_neg (by simp), List.append_nil] at hw
  rcases List.eq_nil_or_concat (Path.steps units) with hnil | ⟨before, s, hsteps⟩
  · rw [hnil] at hw
    cases hw
    simp [h.isDirectoryAt_start path] at hn
  · rw [List.concat_eq_append] at hsteps
    rw [hsteps] at hw
    obtain ⟨parent, hparent, hs⟩ := walk_concat hw
    obtain ⟨name, location, rfl, hc, rfl⟩ :=
      h.step_to_file ((h.anchored_start path).walk hparent) hs hn
    have hd : disk.isDirectoryAt parent = true := (step_eq_ok_iff.mp hs).1
    have ht : disk.target path = .ok (parent, .down name) := by
      rw [target, hb]
      simp [hsteps, hparent, hd]
    have hentry : disk.entry? location = some (.file content) := hf
    refine ⟨disk.put location (.file bytes), ?_⟩
    rw [write, ht]
    simp [hslash, hc, hentry]

end Disk

end ComponentCompiler
