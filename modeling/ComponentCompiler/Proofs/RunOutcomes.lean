import ComponentCompiler.Proofs.RunRefinement

/-! All that the execution of a new run can come to: it is stopped while it lists its sources, while
it reads them, while it reads the scripts of the library or while it writes, or it is done. -/

namespace ComponentCompiler.Run

lemma writeFiles_cons_of_some {disk later : Disk} {path text : Utf16} {rest : List (Utf16 × Utf16)}
    {written : List Utf16} {e : Failure}
    (h : writeFiles disk ((path, text) :: rest) = ⟨later, written, some e⟩) :
    written = [] ∧ writeArtifact disk path text = (later, some e) ∨
      ∃ mid more, writeArtifact disk path text = (mid, none) ∧
        writeFiles mid rest = ⟨later, more, some e⟩ ∧ written = path :: more := by
  rw [writeFiles] at h
  rcases hw : writeArtifact disk path text with ⟨mid, e?⟩
  rw [hw] at h
  cases e? with
  | some e' =>
    obtain ⟨rfl, rfl, he⟩ := Writing.mk.inj h
    exact Or.inl ⟨rfl, by rw [he]⟩
  | none =>
    obtain ⟨rfl, rfl, he⟩ := Writing.mk.inj h
    exact Or.inr ⟨mid, _, rfl, by rw [← he], rfl⟩

lemma write_eq_some {disk later : Disk} {settings : Settings} {artifacts : Artifacts}
    {written : List Utf16} {e : Failure}
    (h : write disk settings artifacts = ⟨later, written, some e⟩) :
    (written = [] ∧ ∃ refusal, disk.ensureDirectories settings.outputDir = (later, some refusal)) ∨
      ∃ disk₁, disk.ensureDirectories settings.outputDir = (disk₁, none) ∧
        (written = [] ∧ writeArtifact disk₁ (modulePath settings) (.ofText artifacts.moduleText) =
            (later, some e) ∨
          written = [modulePath settings] ∧ ∃ disk₂,
            disk₁.write (modulePath settings) (Text.Utf8.encode artifacts.moduleText) = .ok disk₂ ∧
            writeArtifact disk₂ (htmlPath settings) artifacts.documentText = (later, some e)) := by
  rw [write] at h
  rcases hd : disk.ensureDirectories settings.outputDir with ⟨disk₁, refusal?⟩
  rw [hd] at h
  cases refusal? with
  | some refusal =>
    obtain ⟨rfl, rfl, -⟩ := Writing.mk.inj h
    exact Or.inl ⟨rfl, refusal, rfl⟩
  | none =>
    refine Or.inr ⟨disk₁, rfl, ?_⟩
    rcases writeFiles_cons_of_some h with ⟨rfl, hm⟩ | ⟨disk₂, more, hm, hrest, rfl⟩
    · exact Or.inl ⟨rfl, hm⟩
    · obtain ⟨bytes, hb, hm⟩ := writeArtifact_eq_none_iff.mp hm
      obtain rfl := Except.ok.inj ((Utf16.encode_ofText _).symm.trans hb)
      rcases writeFiles_cons_of_some hrest with ⟨rfl, hd⟩ | ⟨_, _, _, hnil, -⟩
      · exact Or.inr ⟨rfl, disk₂, hm, hd⟩
      · cases hnil

inductive Executes (library : Library) (settings : Settings) (disk : Disk) : Outcome → Prop
  | unlisted {e : Failure}
      (hs : Discovery.sources disk settings.sourceDir settings.sourceSuffix settings.entryName =
        .error e) :
      Executes library settings disk (fail { settings } disk begun .discovering e)
  | unread {filenames : List Utf16} {e : Failure}
      (hs : Discovery.sources disk settings.sourceDir settings.sourceSuffix settings.entryName =
        .ok filenames)
      (hu : filenames.mapM (readUnit disk settings) = .error e) :
      Executes library settings disk
        (fail { settings } disk (found settings filenames) .extracting e)
  | unbuilt {filenames : List Utf16} {units : List SourceUnit} {e : Failure}
      (hs : Discovery.sources disk settings.sourceDir settings.sourceSuffix settings.entryName =
        .ok filenames)
      (hu : filenames.mapM (readUnit disk settings) = .ok units)
      (hb : Artifacts.compile library (.ofUnits units) settings = .error e) :
      Executes library settings disk
        (fail { settings, catalog := .ofUnits units } disk (registered settings filenames units)
          .building e)
  | unwritten {filenames : List Utf16} {units : List SourceUnit} {artifacts : Artifacts}
      {later : Disk} {written : List Utf16} {e : Failure}
      (hs : Discovery.sources disk settings.sourceDir settings.sourceSuffix settings.entryName =
        .ok filenames)
      (hu : filenames.mapM (readUnit disk settings) = .ok units)
      (hb : Artifacts.compile library (.ofUnits units) settings = .ok artifacts)
      (hw : write disk settings artifacts = ⟨later, written, some e⟩) :
      Executes library settings disk
        (fail ⟨settings, .idle, .ofUnits units, some artifacts, written⟩ later
          (built settings filenames units) .writing e)
  | done {filenames : List Utf16} {units : List SourceUnit} {artifacts : Artifacts} {later : Disk}
      {written : List Utf16}
      (hs : Discovery.sources disk settings.sourceDir settings.sourceSuffix settings.entryName =
        .ok filenames)
      (hu : filenames.mapM (readUnit disk settings) = .ok units)
      (hb : Artifacts.compile library (.ofUnits units) settings = .ok artifacts)
      (hw : write disk settings artifacts = ⟨later, written, none⟩) :
      Executes library settings disk
        ⟨⟨settings, .done, .ofUnits units, some artifacts, written⟩, later,
          built settings filenames units ++ [.entered .writing .done], .ok written⟩

theorem executes_execute (library : Library) (settings : Settings) (disk : Disk) :
    Executes library settings disk (execute { settings } library disk) := by
  rw [execute, if_neg (by simp)]
  cases hs : Discovery.sources disk settings.sourceDir settings.sourceSuffix settings.entryName with
  | error e =>
    simp only [hs]
    exact .unlisted hs
  | ok filenames =>
    cases hu : filenames.mapM (readUnit disk settings) with
    | error e =>
      simp only [hs, hu]
      exact .unread hs hu
    | ok units =>
      cases hb : Artifacts.compile library (.ofUnits units) settings with
      | error e =>
        simp only [hs, hu, hb]
        exact .unbuilt hs hu hb
      | ok artifacts =>
        rcases hw : write disk settings artifacts with ⟨later, written, e?⟩
        simp only [hs, hu, hb, hw]
        cases e? with
        | some e => exact .unwritten hs hu hb hw
        | none => exact .done hs hu hb hw

variable {library : Library} {settings : Settings} {disk : Disk}

lemma written_of_result {written : List Utf16}
    (h : (execute { settings } library disk).result = .ok written) :
    (execute { settings } library disk).run.written = written ∧
      written = [modulePath settings, htmlPath settings] := by
  obtain ⟨filenames, units, artifacts, later, hs, hu, hb, hw⟩ := execute_eq_ok h
  obtain ⟨-, -, -, -, -, -, -, hwritten⟩ := write_eq_none_iff.mp hw
  exact ⟨by rw [execute_of_write hs hu hb hw], hwritten⟩

lemma phase_execute_eq_done_iff :
    (execute { settings } library disk).run.phase = .done ↔
      ∃ written, (execute { settings } library disk).result = .ok written := by
  have hx := executes_execute library settings disk
  generalize execute { settings } library disk = outcome at hx ⊢
  cases hx with
  | unlisted hs => simp [fail]
  | unread hs hu => simp [fail]
  | unbuilt hs hu hb => simp [fail]
  | unwritten hs hu hb hw => simp [fail]
  | done hs hu hb hw => simp

lemma execute_of_ne_idle {run : Run} (h : run.phase ≠ .idle) (library : Library) (disk : Disk) :
    run.execute library disk = ⟨run, disk, [], .error (alreadyExecuted run.phase)⟩ := by
  rw [execute, if_pos h]

end ComponentCompiler.Run
