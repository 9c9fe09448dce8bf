import ComponentCompiler.Proofs.PathPieces
import ComponentCompiler.Proofs.RunFrame

/-! The failures of a run that are none of the compiler's own reports: a path that does not reach
the system, a source that is no UTF-8, a script that cannot be read or a document without bytes. All
others are reported. -/

namespace ComponentCompiler

def Failure.Foreign : Failure → Prop
  | .diagnosed _ => False
  | _ => True

namespace Disk

inductive Error.PassedOn : Error → Failure → Prop
  | unencodable (fault : Utf16.Fault) : PassedOn (.unencodable fault) (.unencodable fault)
  | nullByte : PassedOn .nullByte .nullByte

lemma Error.passedOn_iff (error : Error) {e : Failure} (action : Text) (path : Utf16) :
    error.PassedOn e ↔ error.failure action path = e ∧ e.Foreign := by
  constructor
  · intro h
    cases h with
    | unencodable fault => exact ⟨rfl, trivial⟩
    | nullByte => exact ⟨rfl, trivial⟩
  · rintro ⟨rfl, hf⟩
    cases error with
    | refused fault => exact False.elim hf
    | unencodable fault => exact .unencodable fault
    | nullByte => exact .nullByte

def Misspelt (path : Utf16) (e : Failure) : Prop :=
  ∃ error, pathBytes path = .error error ∧ error.PassedOn e

variable {path : Utf16} {e : Failure}

lemma misspelt_iff_of_first {α β : Type} {first : Except Error α} {whole : Except Error β}
    (hfirst : (∃ error, first = .error error ∧ error.PassedOn e) ↔ Misspelt path e)
    (hfails : ∀ error, first = .error error → whole = .error error)
    (hrefused : ∀ a, first = .ok a → ∀ error, whole = .error error →
      ∃ fault, error = .refused fault) :
    (∃ error, whole = .error error ∧ error.PassedOn e) ↔ Misspelt path e := by
  rw [← hfirst]
  constructor
  · rintro ⟨error, hw, hp⟩
    cases hf : first with
    | error error' =>
      cases (hfails error' hf).symm.trans hw
      exact ⟨error, rfl, hp⟩
    | ok a =>
      obtain ⟨fault, rfl⟩ := hrefused a hf error hw
      cases hp
  · rintro ⟨error, hf, hp⟩
    exact ⟨error, hfails error hf, hp⟩

lemma locate_misspelt_iff (disk : Disk) :
    (∃ error, disk.locate path = .error error ∧ error.PassedOn e) ↔ Misspelt path e := by
  refine misspelt_iff_of_first Iff.rfl (fun error hb => by rw [locate, hb]) ?_
  intro bytes hb error h
  rw [locate, hb] at h
  cases hw : disk.walk (disk.start path)
      (Path.steps bytes ++ if Path.endsInSlash path then [.here] else []) with
  | error fault =>
    simp only [hw, Except.mapError, Except.error.injEq] at h
    exact ⟨fault, h.symm⟩
  | ok place => simp [hw, Except.mapError] at h

lemma target_misspelt_iff (disk : Disk) :
    (∃ error, disk.target path = .error error ∧ error.PassedOn e) ↔ Misspelt path e := by
  refine misspelt_iff_of_first Iff.rfl (fun error hb => by rw [target, hb]) ?_
  intro bytes hb error h
  rw [target, hb] at h
  dsimp only at h
  split at h
  · next fault _ => exact ⟨fault, (Except.error.inj h).symm⟩
  · split at h
    · cases h
    · exact ⟨.notDirectory, (Except.error.inj h).symm⟩

lemma list_misspelt_iff (disk : Disk) :
    (∃ error, disk.list path = .error error ∧ error.PassedOn e) ↔ Misspelt path e := by
  refine misspelt_iff_of_first (locate_misspelt_iff disk)
    (fun error hl => by rw [list, hl]) ?_
  intro place hl error h
  rw [list, hl] at h
  dsimp only at h
  split at h
  · exact ⟨.notDirectory, (Except.error.inj h).symm⟩
  · split at h <;> cases h

lemma read_misspelt_iff (disk : Disk) :
    (∃ error, disk.read path = .error error ∧ error.PassedOn e) ↔ Misspelt path e := by
  refine misspelt_iff_of_first (locate_misspelt_iff disk)
    (fun error hl => by rw [read, hl]) ?_
  intro place hl error h
  rw [read, hl] at h
  dsimp only at h
  split at h
  · cases h
  · exact ⟨.isDirectory, (Except.error.inj h).symm⟩
  · exact ⟨.missing, (Except.error.inj h).symm⟩

lemma write_misspelt_iff (disk : Disk) (bytes : List UInt8) :
    (∃ error, disk.write path bytes = .error error ∧ error.PassedOn e) ↔ Misspelt path e := by
  refine misspelt_iff_of_first (target_misspelt_iff disk)
    (fun error ht => by rw [write, ht]) ?_
  rintro ⟨parent, s⟩ ht error h
  rw [write, ht] at h
  cases s with
  | here => exact ⟨.isDirectory, (Except.error.inj h).symm⟩
  | up => exact ⟨.isDirectory, (Except.error.inj h).symm⟩
  | down name =>
    dsimp only at h
    split at h
    · exact ⟨.isDirectory, (Except.error.inj h).symm⟩
    · split at h
      · next fault _ => exact ⟨fault, (Except.error.inj h).symm⟩
      · split at h
        · exact ⟨.isDirectory, (Except.error.inj h).symm⟩
        · cases h

lemma not_misspelt_of_has {disk : Disk} (h : disk.has path = true) : ¬ Misspelt path e := by
  intro hm
  obtain ⟨place, hl⟩ := has_iff.mp h
  obtain ⟨error, he, -⟩ := (locate_misspelt_iff disk).mpr hm
  cases hl.symm.trans he

lemma forall_not_misspelt_iff :
    (∀ e, ¬ Misspelt path e) ↔ ∃ bytes, Utf16.encodePath path = .ok bytes ∧ 0 ∉ bytes := by
  simp only [Misspelt, pathBytes, List.contains_eq_mem, decide_eq_true_eq]
  cases Utf16.encodePath path with
  | error fault =>
    simp only [reduceCtorEq, false_and, exists_false, iff_false]
    exact fun h => h _ ⟨_, rfl, .unencodable fault⟩
  | ok bytes =>
    simp only [Except.ok.injEq, exists_eq_left']
    constructor
    · intro h h0
      exact h .nullByte ⟨.nullByte, by rw [if_pos h0], .nullByte⟩
    · rintro h0 e ⟨error, h, hp⟩
      rw [if_neg h0] at h
      split_ifs at h <;> cases h <;> cases hp

lemma not_misspelt_join {dir : Utf16} (hd : dir ≠ []) (h : ∀ e, ¬ Misspelt dir e) (name : Name) :
    ¬ Misspelt (Path.join dir name.text) e := by
  obtain ⟨bytes, hb, h0⟩ := forall_not_misspelt_iff.mp h
  obtain ⟨s, hs, hdir⟩ := Path.join_eq hd name.isAbsolute_text
  have hstem : ∃ x, Utf16.encodePath s = .ok x ∧ 0 ∉ x := by
    rcases hdir with rfl | rfl
    · exact ⟨bytes, hb, h0⟩
    · obtain ⟨x, y, hx, -, rfl⟩ := Utf16.encodePath_append_slash.mp hb
      exact ⟨x, hx, fun hm => h0 (List.mem_append_left _ hm)⟩
  obtain ⟨x, hx, hx0⟩ := hstem
  refine forall_not_misspelt_iff.mpr ⟨x ++ Name.slash :: name.bytes, ?_, ?_⟩ e
  · rw [hs]
    exact Utf16.encodePath_append_slash.mpr ⟨x, name.bytes, hx, name.encodePath_text, rfl⟩
  · simp [hx0, name.notMem_bytes.2, Name.slash]

def Undecodable (disk : Disk) (path : Utf16) (fault : Text.Utf8.Fault) : Prop :=
  ∃ bytes, disk.read path = .ok bytes ∧ Text.Utf8.decode bytes = .error fault

end Disk

namespace Discovery

variable {e : Failure}

lemma sources_foreign_iff (disk : Disk) {dir : Utf16} (suffix entryName : Utf16) :
    sources disk dir suffix entryName = .error e ∧ e.Foreign ↔ Disk.Misspelt dir e := by
  rw [← Disk.list_misspelt_iff disk, sources]
  constructor
  · rintro ⟨h, hf⟩
    split at h
    · cases h
    · next error hl => exact ⟨error, hl, (error.passedOn_iff _ _).mpr ⟨Except.error.inj h, hf⟩⟩
  · rintro ⟨error, hl, hp⟩
    obtain ⟨he, hf⟩ := (error.passedOn_iff "list source directory".toList dir).mp hp
    rw [hl]
    exact ⟨congrArg Except.error he, hf⟩

lemma readSource_foreign_iff {disk : Disk} {path : Utf16} :
    readSource disk path = .error e ∧ e.Foreign ↔
      Disk.Misspelt path e ∨ ∃ fault, disk.Undecodable path fault ∧ e = .undecodable fault := by
  rw [← Disk.read_misspelt_iff disk]
  cases hr : disk.read path with
  | error error =>
    have hread := error.passedOn_iff (e := e) "read source unit".toList path
    simp [readSource, Disk.readText, Disk.Undecodable, hr, Except.map, hread]
  | ok bytes =>
    cases hd : Text.Utf8.decode bytes with
    | error fault =>
      have hs : readSource disk path = .error (.undecodable fault) := by
        simp [readSource, Disk.readText, hr, hd, Except.map]
      rw [hs]
      constructor
      · rintro ⟨h, -⟩
        exact Or.inr ⟨fault, ⟨bytes, hr, hd⟩, (Except.error.inj h).symm⟩
      · rintro (⟨_, h, -⟩ | ⟨fault', ⟨_, hr', hd'⟩, rfl⟩)
        · cases h
        · cases hr.symm.trans hr'
          cases hd.symm.trans hd'
          exact ⟨rfl, trivial⟩
    | ok text => simp [readSource, Disk.readText, Disk.Undecodable, hr, hd, Except.map]

end Discovery

namespace Run

variable {library : Library} {disk : Disk} {settings : Settings} {e : Failure}

lemma readUnit_eq_error_iff {filename : Utf16} :
    readUnit disk settings filename = .error e ↔
      Discovery.readSource disk (Path.join settings.sourceDir filename) = .error e := by
  rw [readUnit]
  cases Discovery.readSource disk (Path.join settings.sourceDir filename) <;> simp [Except.map]

lemma writeArtifact_foreign_iff {path text : Utf16} :
    (∃ later, writeArtifact disk path text = (later, some e)) ∧ e.Foreign ↔
      Disk.Misspelt path e ∨ ∃ fault later, text.encode = .error fault ∧
        disk.write path [] = .ok later ∧ e = .unencodable fault := by
  simp only [writeArtifact_eq_some_iff]
  constructor
  · rintro ⟨⟨later, ⟨refusal, hw, -, he⟩ | ⟨fault, ht, hw, he⟩⟩, hf⟩
    · exact Or.inl ((Disk.write_misspelt_iff disk _).mp
        ⟨refusal, hw, (refusal.passedOn_iff _ _).mpr ⟨he.symm, hf⟩⟩)
    · exact Or.inr ⟨fault, later, ht, hw, he⟩
  · rintro (hm | ⟨fault, later, ht, hw, rfl⟩)
    · obtain ⟨refusal, hw, hp⟩ := (Disk.write_misspelt_iff disk _).mpr hm
      obtain ⟨he, hf⟩ := (refusal.passedOn_iff "write artifact".toList path).mp hp
      exact ⟨⟨disk, Or.inl ⟨refusal, hw, rfl, he.symm⟩⟩, hf⟩
    · exact ⟨⟨later, Or.inr ⟨fault, ht, hw, rfl⟩⟩, trivial⟩

lemma failure?_writeFiles_cons {path text : Utf16} {rest : List (Utf16 × Utf16)} :
    (writeFiles disk ((path, text) :: rest)).failure? = some e ↔
      (∃ later, writeArtifact disk path text = (later, some e)) ∨
        ∃ mid, writeArtifact disk path text = (mid, none) ∧
          (writeFiles mid rest).failure? = some e := by
  rw [writeFiles]
  rcases writeArtifact disk path text with ⟨mid, _ | e'⟩ <;> simp

lemma outputs_foreign_iff {artifacts : Artifacts} :
    (writeFiles disk (outputs settings artifacts)).failure? = some e ∧ e.Foreign ↔
      Disk.Misspelt (modulePath settings) e ∨ ∃ mid,
        disk.write (modulePath settings) (Text.Utf8.encode artifacts.moduleText) = .ok mid ∧
          (Disk.Misspelt (htmlPath settings) e ∨ ∃ fault later,
            artifacts.documentText.encode = .error fault ∧
              mid.write (htmlPath settings) [] = .ok later ∧ e = .unencodable fault) := by
  have houtputs : outputs settings artifacts = [(modulePath settings, .ofText artifacts.moduleText),
      (htmlPath settings, artifacts.documentText)] := rfl
  have hmodule : (∃ later, writeArtifact disk (modulePath settings) (.ofText artifacts.moduleText) =
      (later, some e)) ∧ e.Foreign ↔ Disk.Misspelt (modulePath settings) e := by
    rw [writeArtifact_foreign_iff]
    simp [Utf16.encode_ofText]
  have hwritten : ∀ mid, writeArtifact disk (modulePath settings) (.ofText artifacts.moduleText) =
      (mid, none) ↔
        disk.write (modulePath settings) (Text.Utf8.encode artifacts.moduleText) = .ok mid := by
    intro mid
    rw [writeArtifact_eq_none_iff, Utf16.encode_ofText]
    simp
  have hlast : ∀ mid, (writeFiles mid [(htmlPath settings, artifacts.documentText)]).failure? =
      some e ↔ ∃ later, writeArtifact mid (htmlPath settings) artifacts.documentText =
        (later, some e) := by
    intro mid
    rw [failure?_writeFiles_cons]
    simp [writeFiles]
  rw [houtputs, failure?_writeFiles_cons, or_and_right, hmodule, ← exists_and_right]
  simp only [hwritten, hlast, and_assoc, writeArtifact_foreign_iff]

inductive Unwritten (disk : Disk) (settings : Settings) (artifacts : Artifacts) : Failure → Prop
  | directory {later : Disk} {error : Disk.Error} {e : Failure}
      (hd : disk.ensureDirectories settings.outputDir = (later, some error))
      (hp : error.PassedOn e) : Unwritten disk settings artifacts e
  | modulePath {disk₁ : Disk} {e : Failure}
      (hd : disk.ensureDirectories settings.outputDir = (disk₁, none))
      (hm : Disk.Misspelt (modulePath settings) e) : Unwritten disk settings artifacts e
  | htmlPath {disk₁ disk₂ : Disk} {e : Failure}
      (hd : disk.ensureDirectories settings.outputDir = (disk₁, none))
      (hm : disk₁.write (modulePath settings) (Text.Utf8.encode artifacts.moduleText) = .ok disk₂)
      (hh : Disk.Misspelt (htmlPath settings) e) : Unwritten disk settings artifacts e
  | document {disk₁ disk₂ later : Disk} {fault : Utf16.Fault}
      (hd : disk.ensureDirectories settings.outputDir = (disk₁, none))
      (hm : disk₁.write (modulePath settings) (Text.Utf8.encode artifacts.moduleText) = .ok disk₂)
      (ht : artifacts.documentText.encode = .error fault)
      (hh : disk₂.write (htmlPath settings) [] = .ok later) :
      Unwritten disk settings artifacts (.unencodable fault)

lemma write_foreign_iff {artifacts : Artifacts} :
    (write disk settings artifacts).failure? = some e ∧ e.Foreign ↔
      Unwritten disk settings artifacts e := by
  rw [write]
  rcases hd : disk.ensureDirectories settings.outputDir with ⟨disk₁, _ | error⟩
  · dsimp only
    rw [outputs_foreign_iff]
    constructor
    · rintro (hm | ⟨disk₂, hm, hh | ⟨fault, later, ht, hh, rfl⟩⟩)
      · exact .modulePath hd hm
      · exact .htmlPath hd hm hh
      · exact .document hd hm ht hh
    · intro h
      cases h with
      | directory hd' => cases hd.symm.trans hd'
      | modulePath hd' hm => exact Or.inl hm
      | htmlPath hd' hm hh =>
        cases hd.symm.trans hd'
        exact Or.inr ⟨_, hm, Or.inl hh⟩
      | document hd' hm ht hh =>
        cases hd.symm.trans hd'
        exact Or.inr ⟨_, hm, Or.inr ⟨_, _, ht, hh, rfl⟩⟩
  · constructor
    · rintro ⟨h, hf⟩
      exact .directory hd ((error.passedOn_iff _ _).mpr ⟨Option.some.inj h, hf⟩)
    · intro h
      cases h with
      | directory hd' hp =>
        cases hd.symm.trans hd'
        obtain ⟨he, hf⟩ :=
          (error.passedOn_iff "create output directory".toList settings.outputDir).mp hp
        exact ⟨congrArg some he, hf⟩
      | modulePath hd' => cases hd.symm.trans hd'
      | htmlPath hd' => cases hd.symm.trans hd'
      | document hd' => cases hd.symm.trans hd'

inductive Breaks (library : Library) (disk : Disk) (settings : Settings) : Failure → Prop
  | sourceDir {e : Failure} (h : Disk.Misspelt settings.sourceDir e) :
      Breaks library disk settings e
  | source {before after : List Utf16} {filename : Utf16} {fault : Text.Utf8.Fault}
      (hs : Discovery.sources disk settings.sourceDir settings.sourceSuffix settings.entryName =
        .ok (before ++ filename :: after))
      (hb : ∀ f ∈ before, ∃ text,
        Discovery.readSource disk (Path.join settings.sourceDir f) = .ok text)
      (hf : disk.Undecodable (Path.join settings.sourceDir filename) fault) :
      Breaks library disk settings (.undecodable fault)
  | script {filenames : List Utf16} {units : List SourceUnit} {e : Failure}
      (hs : Discovery.sources disk settings.sourceDir settings.sourceSuffix settings.entryName =
        .ok filenames)
      (hu : filenames.mapM (readUnit disk settings) = .ok units)
      (hb : library.scripts = .error e) : Breaks library disk settings e
  | writing {filenames : List Utf16} {units : List SourceUnit} {artifacts : Artifacts} {e : Failure}
      (hs : Discovery.sources disk settings.sourceDir settings.sourceSuffix settings.entryName =
        .ok filenames)
      (hu : filenames.mapM (readUnit disk settings) = .ok units)
      (hb : Artifacts.compile library (.ofUnits units) settings = .ok artifacts)
      (hw : Unwritten disk settings artifacts e) : Breaks library disk settings e

lemma units_foreign_iff {filenames : List Utf16}
    (hs : Discovery.sources disk settings.sourceDir settings.sourceSuffix settings.entryName =
      .ok filenames) :
    filenames.mapM (readUnit disk settings) = .error e ∧ e.Foreign ↔
      ∃ before filename after fault, filenames = before ++ filename :: after ∧
        (∀ f ∈ before, ∃ text,
          Discovery.readSource disk (Path.join settings.sourceDir f) = .ok text) ∧
        disk.Undecodable (Path.join settings.sourceDir filename) fault ∧
        e = .undecodable fault := by
  obtain ⟨names, hl, rfl⟩ := Discovery.sources_eq_ok hs
  have hdir : ∀ e, ¬ Disk.Misspelt settings.sourceDir e := by
    intro e hm
    obtain ⟨error, he, -⟩ := (Disk.list_misspelt_iff disk).mpr hm
    cases hl.symm.trans he
  have hreadable : ∀ f, (∃ unit, readUnit disk settings f = .ok unit) ↔
      ∃ text, Discovery.readSource disk (Path.join settings.sourceDir f) = .ok text := by
    intro f
    rw [readUnit]
    cases Discovery.readSource disk (Path.join settings.sourceDir f) <;> simp [Except.map]
  simp only [mapM_eq_error_iff, readUnit_eq_error_iff, hreadable]
  constructor
  · rintro ⟨⟨before, filename, after, hsplit, hb, hx⟩, hf⟩
    have hm := (Discovery.order_perm _ _ _).mem_iff.mp
      (hsplit ▸ List.mem_append_right before List.mem_cons_self)
    obtain ⟨name, rfl⟩ := Disk.exists_name_of_list hl (List.mem_filter.mp hm).1
    rcases Discovery.readSource_foreign_iff.mp ⟨hx, hf⟩ with hm | ⟨fault, hu, rfl⟩
    · exact (Disk.not_misspelt_join (Disk.ne_nil_of_list hl) hdir name hm).elim
    · exact ⟨before, _, after, fault, hsplit, hb, hu, rfl⟩
  · rintro ⟨before, filename, after, fault, hsplit, hb, hu, rfl⟩
    obtain ⟨hx, hf⟩ := Discovery.readSource_foreign_iff.mpr (Or.inr ⟨fault, hu, rfl⟩)
    exact ⟨⟨before, filename, after, hsplit, hb, hx⟩, hf⟩

lemma foreign_of_scripts (h : library.scripts = .error e) : e.Foreign := by
  have hread : ∀ name e, library.read name = .error e → e.Foreign := by
    intro name e hr
    rw [Library.read] at hr
    split at hr <;> cases hr <;> trivial
  rcases Library.scripts_eq_error h with hr | hr | hr
  · exact hread _ e hr
  · exact hread _ e hr
  · exact hread _ e hr

theorem execute_foreign_iff :
    (execute { settings } library disk).result = .error e ∧ e.Foreign ↔
      Breaks library disk settings e := by
  constructor
  · rintro ⟨h, hf⟩
    have hx := executes_execute library settings disk
    generalize execute { settings } library disk = outcome at h hx
    cases hx with
    | unlisted hs =>
      cases h
      exact .sourceDir ((Discovery.sources_foreign_iff disk _ _).mp ⟨hs, hf⟩)
    | unread hs hu =>
      cases h
      obtain ⟨before, filename, after, fault, rfl, hb, hr, rfl⟩ :=
        (units_foreign_iff hs).mp ⟨hu, hf⟩
      exact .source hs hb hr
    | unbuilt hs hu hb =>
      cases h
      exact .script hs hu (Artifacts.compile_eq_error_iff.mp hb)
    | unwritten hs hu hb hw =>
      cases h
      exact .writing hs hu hb (write_foreign_iff.mp ⟨by rw [hw], hf⟩)
    | done hs hu hb hw => cases h
  · intro h
    cases h with
    | sourceDir h =>
      obtain ⟨hs, hf⟩ :=
        (Discovery.sources_foreign_iff disk settings.sourceSuffix settings.entryName).mpr h
      exact ⟨by simp [execute, hs, fail], hf⟩
    | source hs hb hr =>
      obtain ⟨hu, hf⟩ := (units_foreign_iff hs).mpr ⟨_, _, _, _, rfl, hb, hr, rfl⟩
      exact ⟨by simp [execute, hs, hu, fail], hf⟩
    | @script _ units _ hs hu hb =>
      have hc : Artifacts.compile library (.ofUnits units) settings = .error e :=
        Artifacts.compile_eq_error_iff.mpr hb
      exact ⟨by simp [execute, hs, hu, hc, fail], foreign_of_scripts hb⟩
    | writing hs hu hb hw =>
      obtain ⟨hw, hf⟩ := write_foreign_iff.mpr hw
      exact ⟨by simp [execute, hs, hu, hb, hw, fail], hf⟩

end Run

end ComponentCompiler
