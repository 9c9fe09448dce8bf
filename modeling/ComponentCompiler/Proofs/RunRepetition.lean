import ComponentCompiler.Proofs.DiskRewriting
import ComponentCompiler.Proofs.RunFrame

/-! A run that is repeated. The first one changes the very directories that the second one lists,
yet none of the entries it adds or overwrites is a source, so the second one finds the same sources
and leaves the disk as it is. -/

namespace ComponentCompiler

namespace Discovery

variable {disk later : Disk} {path : Utf16}

lemma readSource_congr (h : later.read path = disk.read path) :
    readSource later path = readSource disk path := by
  rw [readSource, readSource, Disk.readText, Disk.readText, h]

lemma exists_read_of_readSource {text : Text} (h : readSource disk path = .ok text) :
    ∃ bytes, disk.read path = .ok bytes := by
  rw [readSource, Disk.readText] at h
  cases hr : disk.read path with
  | error e =>
    rw [hr] at h
    cases h
  | ok bytes => exact ⟨bytes, rfl⟩

end Discovery

namespace Run

variable {disk later : Disk} {settings : Settings}

def artifactPaths (settings : Settings) : List Utf16 :=
  [settings.outputDir, settings.moduleFilename, settings.htmlFilename]

/-- No piece of the paths of the artifacts, as a directory would list it, ends in the suffix of
sources. -/
def SetApart (settings : Settings) : Prop :=
  ∀ path ∈ artifactPaths settings, ∀ piece ∈ Text.splitAt Path.slash path,
    Utf16.endsIn settings.sourceSuffix (Path.listed piece) = false

lemma setApart_iff_of_texts (h : ∀ path ∈ artifactPaths settings, ∃ s, path = .ofText s) :
    SetApart settings ↔ ∀ path ∈ artifactPaths settings, ∀ piece ∈ Text.splitAt Path.slash path,
      Utf16.endsIn settings.sourceSuffix piece = false := by
  refine forall_congr' fun path => forall_congr' fun hp => ?_
  obtain ⟨s, rfl⟩ := h path hp
  refine forall_congr' fun piece => forall_congr' fun hm => ?_
  rw [Path.listed_of_mem_splitAt hm]

def Touched (settings : Settings) (name : Name) : Prop :=
  ∃ path ∈ artifactPaths settings, Path.Mentions path name

lemma SetApart.endsIn (h : SetApart settings) {name : Name} (ht : Touched settings name) :
    Utf16.endsIn settings.sourceSuffix name.text = false := by
  obtain ⟨path, hp, hm⟩ := ht
  obtain ⟨piece, hpiece, hl⟩ := hm.exists_listed
  rw [← hl]
  exact h path hp piece hpiece

lemma write_adds {artifacts : Artifacts} {written : List Utf16}
    (h : write disk settings artifacts = ⟨later, written, none⟩) :
    Disk.Adds (Touched settings) disk later := by
  obtain ⟨disk₁, disk₂, bytes, hd, hm, -, hh, -⟩ := write_eq_none_iff.mp h
  have hjoin : ∀ filename, filename ∈ artifactPaths settings → ∀ name,
      Path.Mentions (Path.join settings.outputDir filename) name → Touched settings name := by
    intro filename hf name hn
    rcases Path.mentions_of_join hn with hn | hn
    · exact ⟨settings.outputDir, by simp [artifactPaths], hn⟩
    · exact ⟨filename, hf, hn⟩
  have hmade : Disk.Adds (Touched settings) disk (disk.ensureDirectories settings.outputDir).1 :=
    Disk.ensureDirectories_adds disk fun name hn => ⟨_, by simp [artifactPaths], hn⟩
  rw [hd] at hmade
  have hmodule := Disk.write_adds hm (hjoin settings.moduleFilename (by simp [artifactPaths]))
  have hdocument := Disk.write_adds hh (hjoin settings.htmlFilename (by simp [artifactPaths]))
  exact (hmade.trans hmodule).trans hdocument

lemma write_again {artifacts : Artifacts} {written : List Utf16}
    (hrelative : Path.isAbsolute settings.moduleFilename = false)
    (h : write disk settings artifacts = ⟨later, written, none⟩) :
    write later settings artifacts = ⟨later, written, none⟩ := by
  obtain ⟨disk₁, disk₂, bytes, hd, hm, hb, hh, rfl⟩ := write_eq_none_iff.mp h
  have hne : settings.outputDir ≠ [] := by
    intro hnil
    rw [hnil] at hd
    cases hd
  obtain ⟨disk₄, hm', hh'⟩ := Disk.writes_again hm hh
  have hdirectory := Disk.isDirectory_of_write hne hrelative hm'
  exact write_eq_none_iff.mpr
    ⟨later, disk₄, bytes, Disk.ensureDirectories_of_isDirectory hdirectory, hm', hb, hh', rfl⟩

lemma sources_again (hadds : Disk.Adds (Touched settings) disk later) (hk : disk.Keeps later)
    (hapart : SetApart settings) {filenames : List Utf16}
    (h : Discovery.sources disk settings.sourceDir settings.sourceSuffix settings.entryName =
      .ok filenames) :
    Discovery.sources later settings.sourceDir settings.sourceSuffix settings.entryName =
      .ok filenames := by
  obtain ⟨names, hl, rfl⟩ := Discovery.sources_eq_ok h
  obtain ⟨extra, hl', ht⟩ := hadds.list hk hl
  rw [Discovery.sources, hl']
  refine congrArg Except.ok (Discovery.order_append ?_)
  intro filename hm
  obtain ⟨name, hn, rfl⟩ := List.mem_map.mp hm
  exact hapart.endsIn (ht name hn)

lemma units_again (hadds : Disk.Adds (Touched settings) disk later) (hk : disk.Keeps later)
    (hapart : SetApart settings) {filenames : List Utf16} {units : List SourceUnit}
    (hs : Discovery.sources disk settings.sourceDir settings.sourceSuffix settings.entryName =
      .ok filenames)
    (h : filenames.mapM (readUnit disk settings) = .ok units) :
    filenames.mapM (readUnit later settings) = .ok units := by
  obtain ⟨names, hl, rfl⟩ := Discovery.sources_eq_ok hs
  refine mapM_eq_ok_of_imp h ?_
  intro filename hm unit hu
  obtain ⟨hlisted, hsuffix⟩ := List.mem_filter.mp ((Discovery.order_perm _ _ _).mem_iff.mp hm)
  obtain ⟨name, rfl⟩ := Disk.exists_name_of_list hl hlisted
  have hn : ¬ Touched settings name := by
    intro ht
    rw [hapart.endsIn ht] at hsuffix
    cases hsuffix
  obtain ⟨text, ht, -⟩ := readUnit_eq_ok hu
  obtain ⟨bytes, hr⟩ := Discovery.exists_read_of_readSource ht
  have hr' := hadds.read hk (Disk.ne_nil_of_list hl) hn hr
  rw [readUnit, Discovery.readSource_congr (hr'.trans hr.symm)]
  exact hu

theorem execute_idempotent {library : Library} {written : List Utf16}
    (hrelative : Path.isAbsolute settings.moduleFilename = false) (hapart : SetApart settings)
    (h : (execute { settings } library disk).result = .ok written) :
    execute { settings } library (execute { settings } library disk).disk =
      execute { settings } library disk := by
  obtain ⟨filenames, units, artifacts, later, hs, hu, hb, hw⟩ := execute_eq_ok h
  have hk := (execute_changes library settings disk).keeps
  have hadds := write_adds hw
  rw [execute_of_write hs hu hb hw] at hk ⊢
  exact execute_of_write (sources_again hadds hk hapart hs) (units_again hadds hk hapart hs hu) hb
    (write_again hrelative hw)

def oneFile : Settings :=
  { unnamedEntry with
    outputDir := .ofString "."
    moduleFilename := .ofString "x"
    htmlFilename := .ofString "x" }

theorem execute_idempotent_oneFile :
    (execute { settings := oneFile } .bundled suffixDisk).result =
      .ok [modulePath oneFile, htmlPath oneFile] ∧
    execute { settings := oneFile } .bundled
        (execute { settings := oneFile } .bundled suffixDisk).disk =
      execute { settings := oneFile } .bundled suffixDisk := by
  have hs : Discovery.sources suffixDisk oneFile.sourceDir oneFile.sourceSuffix
      oneFile.entryName = .ok [.ofString ".zmx", .ofString "b.zmx"] := by decide +kernel
  have hu : [.ofString ".zmx", .ofString "b.zmx"].mapM (readUnit suffixDisk oneFile) =
      .ok suffixUnits := by decide +kernel
  have hc := Artifacts.compile_bundled (.ofUnits suffixUnits) oneFile
  have he : suffixDisk.ensureDirectories oneFile.outputDir = (suffixDisk, none) := by
    decide +kernel
  have hb : (Artifacts.ofCatalog (.ofUnits suffixUnits) oneFile).documentText.encode.isOk =
      true := by decide +kernel
  obtain ⟨bytes, hb⟩ := eq_ok_of_isOk hb
  have hw := write_eq_none_iff.mpr ⟨_, _, bytes, he, rfl, hb, rfl, rfl⟩
  have hok : (execute { settings := oneFile } .bundled suffixDisk).result =
      .ok [modulePath oneFile, htmlPath oneFile] := by rw [execute_of_write hs hu hc hw]
  have htexts : ∀ path ∈ artifactPaths oneFile, ∃ s, path = .ofText s := by
    simp [artifactPaths, oneFile, Utf16.ofString]
  have hapart := (setApart_iff_of_texts htexts).mpr (by decide)
  exact ⟨hok, execute_idempotent (by decide) hapart hok⟩

/-- The two lone surrogates stand for the bytes of `é`. -/
def escapedOutput : Settings :=
  { sourceSuffix := .ofString "é", outputDir := [0x61, 0xdcc3, 0xdca9] }

def outputName : Name := ⟨[0x61, 0xc3, 0xa9], rfl⟩

lemma exists_writes_escaped (a b : List UInt8) :
    ∃ disk₁ disk₂, ((Disk.ofHome []).put [outputName] .directory).write
        (modulePath escapedOutput) a = .ok disk₁ ∧
      disk₁.write (htmlPath escapedOutput) b = .ok disk₂ ∧
      disk₂.list escapedOutput.sourceDir = .ok [outputName.text] ∧
      disk₂.read (Path.join escapedOutput.sourceDir outputName.text) =
        .error (.refused .isDirectory) :=
  ⟨_, _, rfl, rfl, rfl, rfl⟩

/-- The output directory is listed as `aé`, and the second run takes it for a source. -/
theorem execute_rereads_output :
    escapedOutput.sourceSuffix ≠ [] ∧
      (∀ path ∈ escapedOutput.sourceDir :: artifactPaths escapedOutput,
        Path.isAbsolute path = false) ∧
      (∀ path ∈ artifactPaths escapedOutput, ∀ piece ∈ Text.splitAt Path.slash path,
        Utf16.endsIn escapedOutput.sourceSuffix piece = false) ∧
      (execute { settings := escapedOutput } .bundled (.ofHome [])).result =
        .ok [modulePath escapedOutput, htmlPath escapedOutput] ∧
      (execute { settings := escapedOutput } .bundled
        (execute { settings := escapedOutput } .bundled (.ofHome [])).disk).result =
          .error (Disk.Error.failure "read source unit".toList
            (Path.join escapedOutput.sourceDir (.ofString "aé")) (.refused .isDirectory)) := by
  have hs : Discovery.sources (.ofHome []) escapedOutput.sourceDir escapedOutput.sourceSuffix
      escapedOutput.entryName = .ok [] := by decide +kernel
  have hc := Artifacts.compile_bundled (.ofUnits []) escapedOutput
  have he : (Disk.ofHome []).ensureDirectories escapedOutput.outputDir =
      ((Disk.ofHome []).put [outputName] .directory, none) := by decide +kernel
  have hb : (Artifacts.ofCatalog (.ofUnits []) escapedOutput).documentText.encode.isOk =
      true := by decide +kernel
  obtain ⟨bytes, hb⟩ := eq_ok_of_isOk hb
  obtain ⟨disk₁, disk₂, hm, hd, hlist, hread⟩ := exists_writes_escaped
    (Text.Utf8.encode (Artifacts.ofCatalog (.ofUnits []) escapedOutput).moduleText) bytes
  have hw := write_eq_none_iff.mpr ⟨_, disk₁, bytes, he, hm, hb, hd, rfl⟩
  have hx := execute_of_write hs rfl hc hw
  have hname : Utf16.ofString "aé" = outputName.text := by decide +kernel
  have horder : Discovery.order escapedOutput.sourceSuffix escapedOutput.entryName
      [outputName.text] = [outputName.text] := by decide +kernel
  have hs' : Discovery.sources disk₂ escapedOutput.sourceDir escapedOutput.sourceSuffix
      escapedOutput.entryName = .ok [outputName.text] := by
    simp only [Discovery.sources, hlist, horder]
  have hu : readUnit disk₂ escapedOutput outputName.text =
      .error (Disk.Error.failure "read source unit".toList
        (Path.join escapedOutput.sourceDir outputName.text) (.refused .isDirectory)) := by
    rw [readUnit, Discovery.readSource, Disk.readText, hread]
    rfl
  refine ⟨by decide, by decide, by decide, by rw [hx], ?_⟩
  rw [hx, hname]
  simp [execute, hs', mapM_cons_of_error hu, fail]

end Run

end ComponentCompiler
