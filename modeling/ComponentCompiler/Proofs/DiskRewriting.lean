import ComponentCompiler.Proofs.DiskFrame
import ComponentCompiler.Proofs.PathPieces

/-! Doing again what was done to a disk. The names that came with it stand on the paths, so all else
is listed and read as before; directories that are there are not made again, and files are given the
bytes they hold. -/

namespace ComponentCompiler

namespace Path

lemma eq_append_of_mem_ancestors {p path : Utf16} (h : p ∈ ancestors path) :
    ∃ rest, path = p ++ slash :: rest ∧ p ≠ [] ∧ endsInSlash p = false := by
  obtain ⟨i, hi, rfl⟩ := List.mem_map.mp h
  obtain ⟨hrange, hend⟩ := List.mem_filter.mp hi
  have hlt : i < path.length := List.mem_range.mp (List.mem_reverse.mp hrange)
  simp only [isAncestorEnd, ne_eq, Bool.and_eq_true, decide_eq_true_eq] at hend
  obtain ⟨⟨hname, hslash⟩, -⟩ := hend
  obtain ⟨hnext, hslash⟩ := List.getElem?_eq_some_iff.mp hslash
  refine ⟨path.drop (i + 2), ?_, List.ne_nil_of_length_pos (by simp; omega), ?_⟩
  · rw [← hslash, ← List.drop_eq_getElem_cons hnext, List.take_append_drop]
  · have hlast : path[i]? = some path[i] := List.getElem?_eq_getElem hlt
    rw [hlast] at hname
    rw [endsInSlash, decide_eq_false_iff_not, List.getLast?_take, if_neg (Nat.succ_ne_zero i),
      Nat.add_sub_cancel, hlast]
    exact hname

end Path

namespace Disk

variable {disk mid later : Disk} {touched : Name → Prop}

/-- The later disk has the entries of the earlier one in their order and new ones after them, and it
differs from the earlier one only in entries with one of some names. -/
structure Adds (touched : Name → Prop) (disk later : Disk) : Prop where
  keys : ∃ added, later.entries.keys = disk.entries.keys ++ added ∧
    ∀ location ∈ added, ∃ name parent, location = name :: parent ∧ touched name
  entry : ∀ name parent, ¬ touched name →
    later.entry? (name :: parent) = disk.entry? (name :: parent)

namespace Adds

lemma refl (touched : Name → Prop) (disk : Disk) : Adds touched disk disk where
  keys := ⟨[], by simp, by simp⟩
  entry _ _ _ := rfl

lemma trans (h : Adds touched disk mid) (h' : Adds touched mid later) :
    Adds touched disk later where
  keys := by
    obtain ⟨added, hk, ha⟩ := h.keys
    obtain ⟨added', hk', ha'⟩ := h'.keys
    refine ⟨added ++ added', by rw [hk', hk, List.append_assoc], ?_⟩
    intro location hm
    exact (List.mem_append.mp hm).elim (ha location) (ha' location)
  entry name parent hn := (h'.entry name parent hn).trans (h.entry name parent hn)

lemma put {name : Name} (h : touched name) (disk : Disk) (parent : Location) (entry : Entry) :
    Adds touched disk (disk.put (name :: parent) entry) where
  keys := by
    have hput := Keyed.keys_put (name :: parent) entry disk.entries
    split at hput
    · exact ⟨[], by rw [List.append_nil]; exact hput, by simp⟩
    · refine ⟨[name :: parent], hput, ?_⟩
      intro location hm
      exact ⟨name, parent, List.mem_singleton.mp hm, h⟩
  entry name' parent' hn := by
    refine entry?_put_of_ne disk ?_ entry
    intro he
    exact hn ((List.cons.inj he).1 ▸ h)

lemma namesAt (h : Adds touched disk later) (location : Location) :
    ∃ extra, later.namesAt location = disk.namesAt location ++ extra ∧
      ∀ name ∈ extra, touched name := by
  obtain ⟨added, hk, ha⟩ := h.keys
  refine ⟨_, by rw [Disk.namesAt, hk, List.filterMap_append]; rfl, ?_⟩
  intro name hm
  obtain ⟨entry, he, hn⟩ := List.mem_filterMap.mp hm
  obtain ⟨name', parent, rfl, ht⟩ := ha entry he
  simp only [Option.ite_none_right_eq_some, Option.some.injEq] at hn
  exact hn.2 ▸ ht

lemma list (h : Adds touched disk later) (hk : disk.Keeps later) {path : Utf16}
    {names : List Utf16} (hl : disk.list path = .ok names) :
    ∃ extra : List Name, later.list path = .ok (names ++ extra.map Name.text) ∧
      ∀ name ∈ extra, touched name := by
  rw [Disk.list] at hl
  split at hl
  · cases hl
  · next place hp =>
    split at hl
    · cases hl
    · next hd =>
      have hdir : later.isDirectoryAt place = true := hk.isDirectoryAt (by simpa using hd)
      rw [Disk.list, hk.locate hp]
      simp only [hdir, Bool.not_true, Bool.false_eq_true, if_false]
      split at hl
      · next hlost =>
        cases hl
        exact ⟨[], by simp [hlost], by simp⟩
      · next hlost =>
        cases hl
        obtain ⟨extra, he, ht⟩ := h.namesAt place.location
        exact ⟨extra, by rw [if_neg hlost, he, List.map_append], ht⟩

end Adds

lemma location_of_join {dir : Utf16} {name : Name} {place : Place} (hd : dir ≠ [])
    (h : disk.locate (Path.join dir name.text) = .ok place) :
    ∃ parent, place = ⟨name :: parent, 0⟩ := by
  obtain ⟨bytes, hb, hw, -⟩ := locate_eq_ok_iff_walk.mp h
  obtain ⟨x, y, -, hy, hs⟩ := pathBytes_of_join hd name.isAbsolute_text hb
  obtain rfl := Except.ok.inj (name.encodePath_text.symm.trans hy)
  rw [hs, Path.steps_bytes] at hw
  obtain ⟨above, -, hdown⟩ := walk_concat hw
  obtain ⟨-, ⟨hs, -⟩ | ⟨hs, -⟩ | ⟨name', location, hs, hc, -, rfl⟩⟩ := step_eq_ok_iff.mp hdown
  · cases hs
  · cases hs
  · cases hs
    exact ⟨above.location, by rw [child_eq_ok hc]⟩

lemma Adds.read (h : Adds touched disk later) (hk : disk.Keeps later) {dir : Utf16} {name : Name}
    {bytes : List UInt8} (hd : dir ≠ []) (hn : ¬ touched name)
    (hr : disk.read (Path.join dir name.text) = .ok bytes) :
    later.read (Path.join dir name.text) = .ok bytes := by
  rw [Disk.read] at hr
  split at hr
  · cases hr
  · next place hl =>
    obtain ⟨parent, rfl⟩ := location_of_join hd hl
    have hentry : later.entryAt? ⟨name :: parent, 0⟩ = disk.entryAt? ⟨name :: parent, 0⟩ :=
      h.entry name parent hn
    rw [Disk.read, hk.locate hl]
    simp only [hentry]
    exact hr

lemma mentions_of_target {path : Utf16} {parent : Place} {name : Name}
    (h : disk.target path = .ok (parent, .down name)) : Path.Mentions path name := by
  obtain ⟨bytes, before, hb, hs, -⟩ := target_eq_ok h
  exact Path.mentions_of_mem_steps (pathBytes_eq_ok_iff.mp hb).1 (by simp [hs])

lemma makeDirectory_adds {path : Utf16} (h : disk.makeDirectory path = .ok later)
    (ht : ∀ name, Path.Mentions path name → touched name) : Adds touched disk later := by
  rw [makeDirectory] at h
  split at h
  · cases h
  · next parent name htarget =>
    split at h
    · cases h
    · next location hc =>
      split at h
      · cases h
      · cases h
        rw [child_eq_ok hc]
        exact Adds.put (ht name (mentions_of_target htarget)) disk parent.location .directory
  · cases h

lemma ensureDirectories_adds (disk : Disk) {path : Utf16}
    (ht : ∀ name, Path.Mentions path name → touched name) :
    Adds touched disk (disk.ensureDirectories path).1 := by
  refine ensureBelow_relates (Adds.refl touched) Adds.trans ?_ disk
  intro p hp d later hm
  refine makeDirectory_adds hm fun name hn => ht name ?_
  rcases List.mem_cons.mp hp with rfl | hp
  · exact hn
  · obtain ⟨rest, rfl, -⟩ := Path.eq_append_of_mem_ancestors hp
    exact Path.mentions_append_iff.mpr (Or.inl hn)

lemma write_adds {path : Utf16} {bytes : List UInt8} (h : disk.write path bytes = .ok later)
    (ht : ∀ name, Path.Mentions path name → touched name) : Adds touched disk later := by
  obtain ⟨parent, name, location, htarget, -, hc, -, rfl⟩ := exists_target_of_write h
  rw [child_eq_ok hc]
  exact Adds.put (ht name (mentions_of_target htarget)) disk parent.location (.file bytes)

lemma isDirectory_iff {path : Utf16} : disk.isDirectory path = true ↔
    ∃ place, disk.locate path = .ok place ∧ disk.isDirectoryAt place = true := by
  rw [isDirectory]
  cases disk.locate path <;> simp

lemma has_of_mem_ancestors {p path : Utf16} (hp : p ∈ Path.ancestors path)
    (h : disk.has path = true) : disk.has p = true := by
  obtain ⟨rest, rfl, hne, hslash⟩ := Path.eq_append_of_mem_ancestors hp
  obtain ⟨place, hl⟩ := has_iff.mp h
  obtain ⟨bytes, hb, hw, -⟩ := locate_eq_ok_iff_walk.mp hl
  obtain ⟨x, y, hx, -, hs⟩ := pathBytes_of_append hne hb
  rw [hs] at hw
  obtain ⟨mid, hm, -⟩ := exists_walk_of_append hw
  refine has_iff.mpr ⟨mid, locate_eq_ok_iff_walk.mpr ⟨x, hx, ?_, by simp [hslash]⟩⟩
  obtain ⟨u, p, rfl⟩ := List.exists_cons_of_ne_nil hne
  exact hm

lemma makeDirectory_of_has {path : Utf16} (h : disk.has path = true) :
    ∃ fault, disk.makeDirectory path = .error (.refused fault) := by
  obtain ⟨place, hl⟩ := has_iff.mp h
  obtain ⟨bytes, hb, hw, -⟩ := locate_eq_ok_iff_walk.mp hl
  rw [makeDirectory]
  split
  · next e he =>
    rw [target, hb] at he
    dsimp only at he
    split at he
    · next fault _ => exact ⟨fault, by rw [← Except.error.inj he]⟩
    · split at he
      · cases he
      · exact ⟨.notDirectory, by rw [← Except.error.inj he]⟩
  · next parent name ht =>
    split
    · next fault _ => exact ⟨fault, rfl⟩
    · next location hc =>
      -- The path has been followed to the very entry that would be made.
      obtain ⟨bytes', before, hb', hs, hparent, -⟩ := target_eq_ok ht
      obtain rfl := Except.ok.inj (hb.symm.trans hb')
      rw [hs] at hw
      obtain ⟨above, habove, hdown⟩ := walk_concat hw
      obtain rfl := Except.ok.inj (hparent.symm.trans habove)
      obtain ⟨-, ⟨hs, -⟩ | ⟨hs, -⟩ | ⟨name', location', hs, hc', hsome, -⟩⟩ :=
        step_eq_ok_iff.mp hdown
      · cases hs
      · cases hs
      · cases hs
        obtain rfl := Except.ok.inj (hc.symm.trans hc')
        exact ⟨.occupied, if_pos hsome⟩
  · exact ⟨.occupied, rfl⟩

lemma ensureDirectories_of_isDirectory {path : Utf16} (h : disk.isDirectory path = true) :
    disk.ensureDirectories path = (disk, none) := by
  obtain ⟨place, hl, -⟩ := isDirectory_iff.mp h
  have hhas : disk.has path = true := has_iff.mpr ⟨place, hl⟩
  have hself : disk.ensureDirectory path = (disk, none) := by
    obtain ⟨fault, hf⟩ := makeDirectory_of_has hhas
    rw [ensureDirectory, hf]
    exact if_pos h
  rw [ensureDirectories]
  cases ha : Path.ancestors path with
  | nil => exact hself
  | cons parent above =>
    rw [ensureBelow, if_pos (has_of_mem_ancestors (ha ▸ List.mem_cons_self) hhas)]
    exact hself

lemma steps_ne_nil {path : Utf16} {bytes : List UInt8} (hne : path ≠ [])
    (habsolute : Path.isAbsolute path = false) (h : Utf16.encodePath path = .ok bytes) :
    Path.steps bytes ≠ [] := by
  have hpiece : ∀ {piece : Utf16} {part : List UInt8}, Path.slash ∉ piece → piece ≠ [] →
      Utf16.encodePath piece = .ok part → Path.steps part ≠ [] := by
    intro piece part hs hp he
    have hs' : Name.slash ∉ part := fun hm =>
      hs ((Utf16.mem_encodePath_iff (d := '/') (by decide) he).mp hm)
    simp [Path.steps, Text.splitAt_of_notMem hs', encodePath_ne_nil hp he]
  by_cases hs : Path.slash ∈ path
  · obtain ⟨first, rest, rfl, hfirst⟩ := List.eq_append_cons_of_mem hs
    obtain ⟨x, y, hx, -, rfl⟩ := Utf16.encodePath_append_slash.mp h
    have hn : first ≠ [] := by
      rintro rfl
      simp [Path.isAbsolute] at habsolute
    rw [Path.steps_append_slash]
    exact List.append_ne_nil_of_left_ne_nil (hpiece hfirst hn hx) _
  · exact hpiece hs hne h

lemma isDirectory_of_write {dir name : Utf16} {bytes : List UInt8} (hd : dir ≠ [])
    (hn : Path.isAbsolute name = false) (h : disk.write (Path.join dir name) bytes = .ok later) :
    disk.isDirectory dir = true := by
  obtain ⟨parent, last, location, ht, hslash, -⟩ := exists_target_of_write h
  obtain ⟨units, before, hb, hs, hw, hparent⟩ := target_eq_ok ht
  obtain ⟨x, y, hx, hy, hsteps⟩ := pathBytes_of_join hd hn hb
  -- Without a name after the directory the path would end in a slash.
  have hne : name ≠ [] := by
    rintro rfl
    obtain ⟨s, hjoin, -⟩ := Path.join_eq hd hn
    rw [hjoin] at hslash
    simp [Path.endsInSlash] at hslash
  obtain ⟨more, s, hmore⟩ := List.eq_nil_or_concat' (Path.steps y) |>.resolve_left
    (steps_ne_nil hne hn hy)
  rw [hsteps, hmore, ← List.append_assoc] at hs
  obtain ⟨rfl, -⟩ := List.append_inj' hs rfl
  obtain ⟨mid, hm, hrest⟩ := exists_walk_of_append hw
  have hmid := isDirectoryAt_of_walk hrest hparent
  rw [start_join disk hd hn] at hm
  exact isDirectory_iff.mpr
    ⟨mid, locate_eq_ok_iff_walk.mpr ⟨x, hx, hm, fun _ => hmid⟩, hmid⟩

lemma Extends.target (he : disk.Extends later) {path : Utf16} {parent : Place} {name : Name}
    (h : disk.target path = .ok (parent, .down name)) :
    later.target path = .ok (parent, .down name) := by
  obtain ⟨bytes, before, hb, hs, hw, hd⟩ := target_eq_ok h
  have hstart : later.start path = disk.start path := by
    rw [start, start, he.home]
  rw [Disk.target, hb]
  simp [hs, hstart, he.walk hw hd, he.isDirectoryAt hd]

lemma write_again {path : Utf16} {bytes : List UInt8} (h : disk.write path bytes = .ok mid)
    (hk : mid.Keeps later) (content : List UInt8) :
    ∃ location, location ≠ [] ∧ mid = disk.put location (.file bytes) ∧
      later.write path content = .ok (later.put location (.file content)) := by
  obtain ⟨parent, name, location, ht, hslash, hc, hn, rfl⟩ := exists_target_of_write h
  have hne : location ≠ [] := by
    rw [child_eq_ok hc]
    exact List.cons_ne_nil _ _
  obtain ⟨bytes', hfile⟩ := hk.file location bytes (entry?_put_self disk hne _)
  refine ⟨location, hne, rfl, ?_⟩
  rw [write, ((extends_put hn _).trans hk.toExtends).target ht]
  simp [hslash, hc, hfile]

lemma put_put (disk : Disk) (location : Location) (a b : Entry) :
    (disk.put location a).put location b = disk.put location b := by
  simp only [put, Keyed.put_put]

lemma put_eq_self {location : Location} {entry : Entry} (hne : location ≠ [])
    (h : disk.entry? location = some entry) : disk.put location entry = disk := by
  obtain ⟨name, parent, rfl⟩ := List.exists_cons_of_ne_nil hne
  have hput : disk.entries.put (name :: parent) entry = disk.entries := Keyed.put_of_find? h
  simp only [put, hput]

theorem writes_again {disk₁ disk₂ disk₃ : Disk} {path path' : Utf16} {bytes bytes' : List UInt8}
    (h : disk₁.write path bytes = .ok disk₂) (h' : disk₂.write path' bytes' = .ok disk₃) :
    ∃ disk₄, disk₃.write path bytes = .ok disk₄ ∧ disk₄.write path' bytes' = .ok disk₃ := by
  obtain ⟨location, hne, hput, hw⟩ := write_again h (write_changes h').keeps bytes
  obtain ⟨location', hne', hput', hw'⟩ := write_again h' (write_changes hw).keeps bytes'
  refine ⟨_, hw, hw'.trans (congrArg Except.ok ?_)⟩
  by_cases hl : location = location'
  · subst hl
    rw [put_put, hput', put_put]
  · have hfile : disk₃.entry? location = some (.file bytes) := by
      rw [hput', entry?_put_of_ne disk₂ hl, hput, entry?_put_self disk₁ hne]
    have hfile' : disk₃.entry? location' = some (.file bytes') := by
      rw [hput', entry?_put_self disk₂ hne']
    rw [put_eq_self hne hfile, put_eq_self hne' hfile']

end Disk

end ComponentCompiler
