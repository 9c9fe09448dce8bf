import ComponentCompiler.Proofs.CanonicalOrder
import ComponentCompiler.Proofs.ModuleDecoding
import ComponentCompiler.Proofs.RunOutcomes
import ComponentCompiler.Proofs.SourceReading

/-! Line endings play no part in a compilation. Sources that differ in them are the same units from
the moment they are read, and the module is written with line feeds alone. -/

namespace ComponentCompiler

namespace Text

inductive Fed : Text → Text → Prop
  | nil : Fed [] []
  | keep {s t : Text} (c : Char) (h : Fed s t) : Fed (c :: s) (c :: t)
  | feed {s t : Text} (h : Fed s t) : Fed ('\n' :: s) ('\r' :: '\n' :: t)

def returned (s : Text) : Text :=
  s.map fun c => if c = '\n' then '\r' else c

def Respelt (s t : Text) : Prop :=
  Fed s t ∨ t = s.returned

lemma unifyNewlines_fed {s t : Text} (h : Fed s t) (hs : '\r' ∉ s) : t.unifyNewlines = s := by
  induction h with
  | nil => rfl
  | keep c _ ih =>
    rw [List.mem_cons, not_or] at hs
    rw [unifyNewlines_cons (Ne.symm hs.1), ih hs.2]
  | feed _ ih =>
    rw [List.mem_cons, not_or] at hs
    rw [unifyNewlines, ih hs.2]

lemma newline_notMem_returned (s : Text) : '\n' ∉ s.returned := by
  rw [returned, List.mem_map]
  rintro ⟨c, -, hc⟩
  split at hc
  · cases hc
  · next hne => exact hne hc

lemma unifyNewlines_returned {s : Text} (hs : '\r' ∉ s) : s.returned.unifyNewlines = s := by
  induction s with
  | nil => rfl
  | cons c s ih =>
    rw [List.mem_cons, not_or] at hs
    have hcons : returned (c :: s) = (if c = '\n' then '\r' else c) :: returned s := rfl
    rw [hcons]
    split
    · next hc =>
      subst hc
      have hlone : ∀ t, returned s ≠ '\n' :: t := by
        intro t ht
        apply newline_notMem_returned s
        rw [ht]
        exact List.mem_cons_self
      rw [unifyNewlines.eq_3 _ hlone, ih hs.2]
    · rw [unifyNewlines_cons (Ne.symm hs.1), ih hs.2]

theorem unifyNewlines_respelt {s t : Text} (h : Respelt s t) (hs : '\r' ∉ s) :
    t.unifyNewlines = s := by
  rcases h with h | rfl
  · exact unifyNewlines_fed h hs
  · exact unifyNewlines_returned hs

end Text

namespace Module

lemma notMem_finish {c : Char} (hc : c ≠ '\n') {part : Text} (h : c ∉ part) : c ∉ finish part := by
  rw [finish, List.mem_append, not_or]
  refine ⟨?_, by simpa using hc⟩
  intro hm
  apply h
  rw [Text.dropEndWhile, List.mem_reverse] at hm
  exact List.mem_reverse.mp ((List.dropWhile_sublist _).mem hm)

lemma return_notMem_literal (units : Utf16) : '\r' ∉ Text.Literal.encode units := by
  intro hm
  exact absurd (Text.Literal.printable_of_mem_encode hm) (by decide)

lemma return_notMem_order (names : List Utf16) :
    '\r' ∉ Text.join ", ".toList (names.map Text.Literal.encode) := by
  cases names with
  | nil => exact List.not_mem_nil
  | cons name names =>
    rw [List.map_cons, Text.join, Text.intercalate_cons, List.mem_append, List.mem_flatMap]
    rintro (hm | ⟨literal, hl, hm⟩)
    · exact return_notMem_literal name hm
    · obtain ⟨other, -, rfl⟩ := List.mem_map.mp hl
      rcases List.mem_append.mp hm with hm | hm
      · exact absurd hm (by decide)
      · exact return_notMem_literal other hm

lemma return_notMem_writtenEntry (e : Utf16 × Text) : '\r' ∉ writtenEntry e := by
  rw [writtenEntry]
  simp only [List.mem_append, not_or]
  exact ⟨by decide, return_notMem_literal _, by decide, return_notMem_literal _, by decide⟩

lemma return_notMem_text {frame : Frame} (ho : '\r' ∉ frame.opening) (hc : '\r' ∉ frame.closing)
    (catalog : Catalog) (settings : Settings) : '\r' ∉ text frame catalog settings := by
  have hentries : '\r' ∉
      (catalog.components.map fun c => (c.name, c.template)).flatMap writtenEntry := by
    rw [List.mem_flatMap]
    rintro ⟨e, -, hm⟩
    exact return_notMem_writtenEntry e hm
  have hattribute : '\r' ∉ attributeMark frame := by
    rw [attributeMark, List.mem_append, List.mem_append, not_or, not_or]
    exact ⟨⟨by decide, notMem_finish (by decide) ho⟩, by decide⟩
  have hending : '\r' ∉ ending frame := by
    rw [ending, List.cons_append, List.mem_cons, List.mem_append, not_or, not_or]
    exact ⟨by decide, notMem_finish (by decide) hc, by decide⟩
  rw [text_eq]
  simp only [List.mem_append, not_or]
  exact ⟨hattribute, return_notMem_literal _, by decide, return_notMem_literal _, by decide,
    return_notMem_order _, by decide, hentries, hending⟩

end Module

namespace Discovery

lemma order_filter (suffix entryName : Utf16) (names : List Utf16) :
    order suffix entryName (names.filter (Utf16.endsIn suffix)) = order suffix entryName names := by
  have hidem : (names.filter (Utf16.endsIn suffix)).filter (Utf16.endsIn suffix) =
      names.filter (Utf16.endsIn suffix) := by
    rw [List.filter_filter]
    simp
  rw [order, order, hidem]

lemma order_eq_of_mem_iff {suffix : Utf16} {names others : List Utf16} (h : names.Nodup)
    (h' : others.Nodup)
    (hm : ∀ name, Utf16.endsIn suffix name = true → (name ∈ names ↔ name ∈ others))
    (entryName : Utf16) : order suffix entryName names = order suffix entryName others := by
  have hp : (names.filter (Utf16.endsIn suffix)).Perm (others.filter (Utf16.endsIn suffix)) := by
    apply (List.perm_ext_iff_of_nodup (h.filter _) (h'.filter _)).mpr
    intro name
    rw [List.mem_filter, List.mem_filter]
    constructor
    · rintro ⟨hname, he⟩
      exact ⟨(hm name he).mp hname, he⟩
    · rintro ⟨hname, he⟩
      exact ⟨(hm name he).mpr hname, he⟩
  rw [← order_filter, ← order_filter suffix entryName others]
  exact (canonical_order (h.filter _) suffix entryName).unique
    (canonical_order (h'.filter _) suffix entryName) hp

end Discovery

namespace Run

lemma execute_of_units {library : Library} {settings : Settings} {disk : Disk}
    {filenames : List Utf16} {units : List SourceUnit}
    (hs : Discovery.sources disk settings.sourceDir settings.sourceSuffix settings.entryName =
      .ok filenames)
    (hu : filenames.mapM (readUnit disk settings) = .ok units) :
    (execute { settings } library disk).run.catalog = .ofUnits units ∧
      (execute { settings } library disk).run.artifacts? =
        (Artifacts.compile library (.ofUnits units) settings).toOption := by
  have hx := executes_execute library settings disk
  generalize execute { settings } library disk = outcome at hx ⊢
  cases hx with
  | unlisted hs' => cases hs.symm.trans hs'
  | unread hs' hu' =>
    cases hs.symm.trans hs'
    cases hu.symm.trans hu'
  | unbuilt hs' hu' hb =>
    cases hs.symm.trans hs'
    cases hu.symm.trans hu'
    exact ⟨rfl, by rw [hb]; rfl⟩
  | unwritten hs' hu' hb hw =>
    cases hs.symm.trans hs'
    cases hu.symm.trans hu'
    exact ⟨rfl, by rw [hb]; rfl⟩
  | done hs' hu' hb hw =>
    cases hs.symm.trans hs'
    cases hu.symm.trans hu'
    exact ⟨rfl, by rw [hb]; rfl⟩

structure SameSources (suffix : Utf16) (disk : Disk) (directory : Utf16) (disk' : Disk)
    (directory' : Utf16) (names names' : List Utf16) : Prop where
  list : disk.list directory = .ok names
  list' : disk'.list directory' = .ok names'
  same : ∀ name, Utf16.endsIn suffix name = true → (name ∈ names ↔ name ∈ names')
  files : ∀ name ∈ names, Utf16.endsIn suffix name = true → ∃ s t : Text,
    disk.read (Path.join directory name) = .ok (Text.Utf8.encode s) ∧ '\r' ∉ s ∧
      disk'.read (Path.join directory' name) = .ok (Text.Utf8.encode t) ∧ s.Respelt t

lemma SameSources.sources {suffix directory directory' : Utf16} {disk disk' : Disk}
    {names names' : List Utf16}
    (h : SameSources suffix disk directory disk' directory' names names') (entryName : Utf16) :
    Discovery.sources disk directory suffix entryName =
        .ok (Discovery.order suffix entryName names) ∧
      Discovery.sources disk' directory' suffix entryName =
        .ok (Discovery.order suffix entryName names) := by
  have horder := Discovery.order_eq_of_mem_iff (Disk.nodup_of_list h.list)
    (Disk.nodup_of_list h.list') h.same entryName
  constructor
  · rw [Discovery.sources, h.list]
  · rw [Discovery.sources, h.list', horder]

lemma readUnit_of_read {settings : Settings} {disk : Disk} {filename : Utf16} {s : Text}
    (h : disk.read (Path.join settings.sourceDir filename) = .ok (Text.Utf8.encode s)) :
    readUnit disk settings filename =
      .ok (.ofText (Discovery.componentName settings.sourceSuffix filename) s.unifyNewlines) := by
  rw [readUnit, Discovery.readSource, Disk.readText_of_read h]
  rfl

variable {settings settings' : Settings} {disk disk' : Disk} {names names' : List Utf16}

lemma SameSources.units (hsuffix : settings'.sourceSuffix = settings.sourceSuffix)
    (h : SameSources settings.sourceSuffix disk settings.sourceDir disk' settings'.sourceDir
      names names') (entryName : Utf16) :
    ∃ units,
      (Discovery.order settings.sourceSuffix entryName names).mapM (readUnit disk settings) =
        .ok units ∧
      (Discovery.order settings.sourceSuffix entryName names).mapM (readUnit disk' settings') =
        .ok units := by
  apply exists_mapM
  intro filename hf
  obtain ⟨hlisted, hends⟩ := List.mem_filter.mp ((Discovery.order_perm _ _ _).mem_iff.mp hf)
  obtain ⟨s, t, hr, hreturn, hr', ht⟩ := h.files filename hlisted hends
  refine ⟨_, readUnit_of_read hr, ?_⟩
  rw [readUnit_of_read hr', hsuffix, Text.unifyNewlines_respelt ht hreturn,
    Text.unifyNewlines_eq_self_iff.mpr hreturn]

theorem execute_respelt (library : Library) {directory output : Utf16}
    (h : SameSources settings.sourceSuffix disk settings.sourceDir disk' directory names names') :
    let settings' := { settings with sourceDir := directory, outputDir := output }
    (execute { settings } library disk).run.catalog =
        (execute { settings := settings' } library disk').run.catalog ∧
      (execute { settings } library disk).run.artifacts? =
        (execute { settings := settings' } library disk').run.artifacts? ∧
      (library.Readable → ∃ artifacts,
        (execute { settings } library disk).run.artifacts? = some artifacts ∧
          '\r' ∉ artifacts.moduleText) := by
  intro settings'
  obtain ⟨hs, hs'⟩ := h.sources settings.entryName
  have hsuffix : settings'.sourceSuffix = settings.sourceSuffix := rfl
  obtain ⟨units, hu, hu'⟩ := SameSources.units hsuffix h settings.entryName
  obtain ⟨hc, ha⟩ := @execute_of_units library settings disk _ _ hs hu
  obtain ⟨hc', ha'⟩ := @execute_of_units library settings' disk' _ _ hs' hu'
  -- Neither artifact is made from the two directories.
  have hcompile : Artifacts.compile library (.ofUnits units) settings' =
      Artifacts.compile library (.ofUnits units) settings := rfl
  refine ⟨hc.trans hc'.symm, by rw [ha, ha', hcompile], ?_⟩
  rintro ⟨scripts, hscripts⟩
  have hartifacts : Artifacts.compile library (.ofUnits units) settings =
      .ok (.make scripts (.ofUnits units) settings) :=
    Artifacts.compile_eq_ok_iff.mpr ⟨scripts, hscripts, rfl⟩
  refine ⟨_, by rw [ha, hartifacts]; rfl, ?_⟩
  obtain ⟨hopening, hclosing, -⟩ := Library.scripts_eq_ok_iff.mp hscripts
  exact Module.return_notMem_text (Library.return_notMem_read hopening)
    (Library.return_notMem_read hclosing) _ _

/-- The same two sources in the directories `l` and `r`, with line feeds in the first. -/
def twoSpellings : Disk where
  entries := [([⟨[0x6c], rfl⟩], .directory), ([⟨[0x72], rfl⟩], .directory),
    ([⟨[0x61, 0x2e, 0x7a, 0x6d, 0x78], rfl⟩, ⟨[0x6c], rfl⟩],
      .file (Text.Utf8.encode ['x', '\n', '\n', 'y'])),
    ([⟨[0x63, 0x2e, 0x7a, 0x6d, 0x78], rfl⟩, ⟨[0x6c], rfl⟩],
      .file (Text.Utf8.encode ['\n', '\n', 'z'])),
    ([⟨[0x63, 0x2e, 0x7a, 0x6d, 0x78], rfl⟩, ⟨[0x72], rfl⟩],
      .file (Text.Utf8.encode ['\r', '\r', 'z'])),
    ([⟨[0x61, 0x2e, 0x7a, 0x6d, 0x78], rfl⟩, ⟨[0x72], rfl⟩],
      .file (Text.Utf8.encode ['x', '\n', '\r', '\n', 'y']))]
  home := ⟨[], 0⟩
  nodup := by decide

def fromLeft : Settings := { sourceDir := .ofString "l" }

def fromRight : Settings := { sourceDir := .ofString "r", outputDir := .ofString "out" }

theorem execute_twoSpellings :
    SameSources fromLeft.sourceSuffix twoSpellings fromLeft.sourceDir twoSpellings
      fromRight.sourceDir [.ofString "a.zmx", .ofString "c.zmx"]
      [.ofString "c.zmx", .ofString "a.zmx"] ∧
    (execute { settings := fromLeft } .bundled twoSpellings).run.catalog =
        (execute { settings := fromRight } .bundled twoSpellings).run.catalog ∧
      ∃ artifacts, (execute { settings := fromLeft } .bundled twoSpellings).run.artifacts? =
          some artifacts ∧
        (execute { settings := fromRight } .bundled twoSpellings).run.artifacts? =
          some artifacts ∧
        '\r' ∉ artifacts.moduleText := by
  have hfirst : Text.Respelt ['x', '\n', '\n', 'y'] ['x', '\n', '\r', '\n', 'y'] :=
    Or.inl (.keep _ (.keep _ (.feed (.keep _ .nil))))
  have hsecond : Text.Respelt ['\n', '\n', 'z'] ['\r', '\r', 'z'] := Or.inr rfl
  have hsame : SameSources fromLeft.sourceSuffix twoSpellings fromLeft.sourceDir twoSpellings
      fromRight.sourceDir [.ofString "a.zmx", .ofString "c.zmx"]
      [.ofString "c.zmx", .ofString "a.zmx"] := {
    list := by decide
    list' := by decide
    same := by
      intro name _
      simp [or_comm]
    files := by
      intro name hm _
      rcases List.mem_pair.mp hm with rfl | rfl
      · exact ⟨_, _, by decide, by decide, by decide, hfirst⟩
      · exact ⟨_, _, by decide, by decide, by decide, hsecond⟩ }
  obtain ⟨hcatalog, hequal, hsome⟩ := execute_respelt .bundled hsame
  obtain ⟨artifacts, ha, hreturn⟩ := hsome Library.readable_bundled
  exact ⟨hsame, hcatalog, artifacts, ha, hequal.symm.trans ha, hreturn⟩

end Run

end ComponentCompiler
