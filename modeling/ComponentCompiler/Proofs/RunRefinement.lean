import ComponentCompiler.Proofs.Catalogs
import ComponentCompiler.Proofs.DiscoveryOrder
import ComponentCompiler.Proofs.ScriptLibrary
import ComponentCompiler.Proofs.Traversal
import ComponentCompiler.Run.Basic

/-! A run that succeeds has done what discovery, reading, registration and code generation do by
themselves: no source unit is lost on the way, and the artifacts stand on disk. -/

namespace ComponentCompiler.Run

lemma readUnit_eq_ok {disk : Disk} {settings : Settings} {filename : Utf16} {unit : SourceUnit}
    (h : readUnit disk settings filename = .ok unit) :
    ∃ text, Discovery.readSource disk (Path.join settings.sourceDir filename) = .ok text ∧
      unit = .ofText (Discovery.componentName settings.sourceSuffix filename) text := by
  rw [readUnit] at h
  cases hr : Discovery.readSource disk (Path.join settings.sourceDir filename) with
  | error e =>
    rw [hr] at h
    cases h
  | ok text =>
    rw [hr] at h
    exact ⟨text, rfl, (Except.ok.inj h).symm⟩

lemma names_of_readUnit {disk : Disk} {settings : Settings} {filenames : List Utf16}
    {units : List SourceUnit}
    (h : List.Forall₂ (fun f unit => readUnit disk settings f = .ok unit) filenames units) :
    units.map SourceUnit.name = filenames.map (Discovery.componentName settings.sourceSuffix) := by
  induction h with
  | nil => rfl
  | cons hf _ ih =>
    obtain ⟨text, -, rfl⟩ := readUnit_eq_ok hf
    rw [List.map_cons, List.map_cons, ih]
    rfl

lemma writeArtifact_eq_none_iff {disk later : Disk} {path text : Utf16} :
    writeArtifact disk path text = (later, none) ↔
      ∃ bytes, text.encode = .ok bytes ∧ disk.write path bytes = .ok later := by
  rw [writeArtifact, Disk.writeText]
  cases he : text.encode with
  | error fault =>
    cases hw : disk.write path [] <;> simp [hw]
  | ok bytes =>
    cases hw : disk.write path bytes <;> simp [hw]

theorem readText_of_writeArtifact {disk later : Disk} {path : Utf16} {text : Text}
    (h : writeArtifact disk path (.ofText text) = (later, none)) :
    later.readText path = .ok (.ok text.unifyNewlines) := by
  obtain ⟨bytes, hb, hw⟩ := writeArtifact_eq_none_iff.mp h
  obtain rfl := Except.ok.inj ((Utf16.encode_ofText text).symm.trans hb)
  exact Disk.readText_of_read (Disk.read_of_write hw)

def modulePath (settings : Settings) : Utf16 :=
  Path.join settings.outputDir settings.moduleFilename

def htmlPath (settings : Settings) : Utf16 :=
  Path.join settings.outputDir settings.htmlFilename

lemma writeFiles_cons_iff {disk later : Disk} {path text : Utf16} {rest : List (Utf16 × Utf16)}
    {written : List Utf16} :
    writeFiles disk ((path, text) :: rest) = ⟨later, written, none⟩ ↔
      ∃ mid more, writeArtifact disk path text = (mid, none) ∧
        writeFiles mid rest = ⟨later, more, none⟩ ∧ written = path :: more := by
  rw [writeFiles]
  rcases hw : writeArtifact disk path text with ⟨mid, e?⟩
  cases e? with
  | some e => simp
  | none =>
    constructor
    · intro h
      obtain ⟨rfl, rfl, hf⟩ := Writing.mk.inj h
      exact ⟨mid, _, rfl, by rw [← hf], rfl⟩
    · rintro ⟨_, more, hm, hr, rfl⟩
      cases hm
      simp only [hr]

lemma write_eq_none_iff {disk later : Disk} {settings : Settings} {artifacts : Artifacts}
    {written : List Utf16} :
    write disk settings artifacts = ⟨later, written, none⟩ ↔
      ∃ disk₁ disk₂ bytes, disk.ensureDirectories settings.outputDir = (disk₁, none) ∧
        disk₁.write (modulePath settings) (Text.Utf8.encode artifacts.moduleText) = .ok disk₂ ∧
        artifacts.documentText.encode = .ok bytes ∧
        disk₂.write (htmlPath settings) bytes = .ok later ∧
        written = [modulePath settings, htmlPath settings] := by
  rw [write]
  rcases disk.ensureDirectories settings.outputDir with ⟨disk₁, e?⟩
  cases e? with
  | some e => simp
  | none =>
    constructor
    · intro h
      obtain ⟨disk₂, more, hm, hrest, rfl⟩ := writeFiles_cons_iff.mp h
      obtain ⟨disk₃, last, hd, hnil, rfl⟩ := writeFiles_cons_iff.mp hrest
      obtain ⟨mbytes, hmb, hm⟩ := writeArtifact_eq_none_iff.mp hm
      obtain ⟨bytes, hb, hd⟩ := writeArtifact_eq_none_iff.mp hd
      obtain rfl := Except.ok.inj ((Utf16.encode_ofText _).symm.trans hmb)
      cases hnil
      exact ⟨disk₁, disk₂, bytes, rfl, hm, hb, hd, rfl⟩
    · rintro ⟨_, disk₂, bytes, he, hm, hb, hd, rfl⟩
      cases he
      refine writeFiles_cons_iff.mpr ⟨disk₂, [htmlPath settings], ?_, ?_, rfl⟩
      · exact writeArtifact_eq_none_iff.mpr ⟨_, Utf16.encode_ofText _, hm⟩
      · refine writeFiles_cons_iff.mpr ⟨later, [], ?_, rfl, rfl⟩
        exact writeArtifact_eq_none_iff.mpr ⟨bytes, hb, hd⟩

def begun : List Notice :=
  [.entered .idle .discovering]

def found (settings : Settings) (filenames : List Utf16) : List Notice :=
  begun ++ [.discovered filenames.length settings.sourceDir, .entered .discovering .extracting]

def registered (settings : Settings) (filenames : List Utf16) (units : List SourceUnit) :
    List Notice :=
  found settings filenames ++ .entered .extracting .building :: units.map Notice.ofUnit

def built (settings : Settings) (filenames : List Utf16) (units : List SourceUnit) : List Notice :=
  registered settings filenames units ++ [.entered .building .writing]

variable {library : Library} {settings : Settings} {disk later : Disk}
  {filenames written : List Utf16} {units : List SourceUnit} {artifacts : Artifacts}

theorem execute_eq_ok (h : (execute { settings } library disk).result = .ok written) :
    ∃ filenames units artifacts later,
      Discovery.sources disk settings.sourceDir settings.sourceSuffix settings.entryName =
        .ok filenames ∧
      filenames.mapM (readUnit disk settings) = .ok units ∧
      Artifacts.compile library (.ofUnits units) settings = .ok artifacts ∧
      write disk settings artifacts = ⟨later, written, none⟩ := by
  rw [execute, if_neg (by simp)] at h
  dsimp only at h
  split at h
  · cases h
  · next filenames hs =>
    split at h
    · cases h
    · next units hu =>
      split at h
      · cases h
      · next artifacts hb =>
        split at h
        · cases h
        · next hw =>
          refine ⟨filenames, units, artifacts, (write disk settings artifacts).disk, hs, hu, hb, ?_⟩
          rw [← hw, ← Except.ok.inj h]

lemma execute_of_write
    (hs : Discovery.sources disk settings.sourceDir settings.sourceSuffix settings.entryName =
      .ok filenames)
    (hu : filenames.mapM (readUnit disk settings) = .ok units)
    (hb : Artifacts.compile library (.ofUnits units) settings = .ok artifacts)
    (hw : write disk settings artifacts = ⟨later, written, none⟩) :
    execute { settings } library disk =
      ⟨⟨settings, .done, .ofUnits units, some artifacts, written⟩, later,
        built settings filenames units ++ [.entered .writing .done], .ok written⟩ := by
  rw [execute, if_neg (by simp)]
  simp only [hs, hu, hb, hw]
  rfl

structure Faithful (library : Library) (disk : Disk) (settings : Settings)
    (filenames : List Utf16) (artifacts : Artifacts) (outcome : Outcome) : Prop where
  discovered :
    Discovery.sources disk settings.sourceDir settings.sourceSuffix settings.entryName =
      .ok filenames
  complete : ∃ listing, disk.list settings.sourceDir = .ok listing ∧
    filenames.Perm (listing.filter (Utf16.endsIn settings.sourceSuffix))
  distinct : (filenames.map (Discovery.componentName settings.sourceSuffix)).Nodup
  names : outcome.run.catalog.names =
    filenames.map (Discovery.componentName settings.sourceSuffix)
  size : outcome.run.catalog.size = filenames.length
  entries : List.Forall₂ (fun filename entry =>
    entry.1 = Discovery.componentName settings.sourceSuffix filename ∧
      ∃ text, Discovery.readSource disk (Path.join settings.sourceDir filename) = .ok text ∧
        entry.2 = .ofUnit (.ofText entry.1 text)) filenames outcome.run.catalog.entries
  entryFirst : ∀ listing, disk.list settings.sourceDir = .ok listing → ∀ filename ∈ listing,
    filename.points = settings.entryName.points ++ settings.sourceSuffix.points →
      outcome.run.catalog.names.head? = some settings.entryName
  compiled : Artifacts.compile library outcome.run.catalog settings = .ok artifacts
  stored : outcome.run.artifacts? = some artifacts
  documentFile : ∃ bytes, artifacts.documentText.encode = .ok bytes ∧
    outcome.disk.read (htmlPath settings) = .ok bytes
  moduleFile :
    outcome.disk.read (modulePath settings) = .ok (Text.Utf8.encode artifacts.moduleText) ∨
    ∃ place, outcome.disk.locate (modulePath settings) = .ok place ∧
      outcome.disk.locate (htmlPath settings) = .ok place

lemma entries_of_units
    (h : List.Forall₂ (fun f unit => readUnit disk settings f = .ok unit) filenames units) :
    List.Forall₂ (fun filename (entry : Utf16 × Component) =>
      entry.1 = Discovery.componentName settings.sourceSuffix filename ∧
        ∃ text, Discovery.readSource disk (Path.join settings.sourceDir filename) = .ok text ∧
          entry.2 = .ofUnit (.ofText entry.1 text)) filenames
      (units.map fun unit => (unit.name, Component.ofUnit unit)) := by
  rw [List.forall₂_map_right_iff]
  refine h.imp ?_
  intro filename unit hf
  obtain ⟨text, ht, rfl⟩ := readUnit_eq_ok hf
  exact ⟨rfl, text, ht, rfl⟩

theorem execute_refines (h : (execute { settings } library disk).result = .ok written) :
    ∃ filenames artifacts,
      Faithful library disk settings filenames artifacts (execute { settings } library disk) := by
  obtain ⟨filenames, units, artifacts, later, hs, hu, hc, hw⟩ := execute_eq_ok h
  obtain ⟨disk₁, disk₂, bytes, -, hm, hb, hd, -⟩ := write_eq_none_iff.mp hw
  obtain ⟨hdocument, hmodule⟩ := Disk.read_of_writes hm hd
  obtain ⟨listing, hl, ho⟩ := Discovery.sources_eq_ok hs
  have hunits := mapM_eq_ok_iff.mp hu
  have hdistinct : (filenames.map (Discovery.componentName settings.sourceSuffix)).Nodup := by
    rw [ho]
    exact Discovery.nodup_componentName_order (Disk.nodup_of_list hl) _ _
  have hentries : (Catalog.ofUnits units).entries =
      units.map fun unit => (unit.name, Component.ofUnit unit) := by
    refine Catalog.entries_ofUnits_of_nodup ?_
    rw [names_of_readUnit hunits]
    exact hdistinct
  have hnames : (Catalog.ofUnits units).names =
      filenames.map (Discovery.componentName settings.sourceSuffix) := by
    rw [Catalog.names, hentries, ← names_of_readUnit hunits, Keyed.keys, List.map_map]
    rfl
  rw [execute_of_write hs hu hc hw]
  exact ⟨filenames, artifacts, {
    discovered := hs
    complete := ⟨listing, hl, ho ▸ Discovery.order_perm _ _ _⟩
    distinct := hdistinct
    names := hnames
    size := by rw [Catalog.size, hentries, List.length_map, hunits.length_eq]
    entries := by
      rw [hentries]
      exact entries_of_units hunits
    entryFirst := by
      intro listing' hl' filename hm hp
      cases hl.symm.trans hl'
      rw [hnames, ho]
      exact Discovery.head?_componentName_order hm hp
    compiled := hc
    stored := rfl
    documentFile := ⟨bytes, hb, hdocument⟩
    moduleFile := hmodule }⟩

/-- A directory with the files `b.zmx` and `.zmx`, the second named like the suffix alone. -/
def suffixDisk : Disk where
  entries := [([⟨[0x62, 0x2e, 0x7a, 0x6d, 0x78], rfl⟩],
      .file (Text.Utf8.encode "<template>\x7bx\x7d</template>".toList)),
    ([⟨[0x2e, 0x7a, 0x6d, 0x78], rfl⟩], .file [])]
  home := ⟨[], 0⟩
  nodup := by decide

def suffixUnits : List SourceUnit :=
  [{ name := [] }, { name := .ofString "b", template := "\x7bx\x7d".toList }]

def unnamedEntry : Settings := { entryName := [] }

theorem execute_refines_unnamedEntry :
    (execute { settings := unnamedEntry } .bundled suffixDisk).result =
      .ok [modulePath unnamedEntry, htmlPath unnamedEntry] ∧
    ∃ filenames artifacts, Faithful .bundled suffixDisk unnamedEntry filenames artifacts
      (execute { settings := unnamedEntry } .bundled suffixDisk) := by
  have hs : Discovery.sources suffixDisk unnamedEntry.sourceDir unnamedEntry.sourceSuffix
      unnamedEntry.entryName = .ok [.ofString ".zmx", .ofString "b.zmx"] := by decide +kernel
  have hu : [.ofString ".zmx", .ofString "b.zmx"].mapM (readUnit suffixDisk unnamedEntry) =
      .ok suffixUnits := by decide +kernel
  have hc := Artifacts.compile_bundled (.ofUnits suffixUnits) unnamedEntry
  have he : suffixDisk.ensureDirectories unnamedEntry.outputDir =
      (suffixDisk.put [⟨[0x64, 0x69, 0x73, 0x74], rfl⟩] .directory, none) := by decide +kernel
  have hb : (Artifacts.ofCatalog (.ofUnits suffixUnits)
      unnamedEntry).documentText.encode.isOk = true := by decide +kernel
  obtain ⟨bytes, hb⟩ := eq_ok_of_isOk hb
  have hw := write_eq_none_iff.mpr ⟨_, _, bytes, he, rfl, hb, rfl, rfl⟩
  have hok : (execute { settings := unnamedEntry } .bundled suffixDisk).result =
      .ok [modulePath unnamedEntry, htmlPath unnamedEntry] := by rw [execute_of_write hs hu hc hw]
  exact ⟨hok, execute_refines hok⟩

end ComponentCompiler.Run
