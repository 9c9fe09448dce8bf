import ComponentCompiler.Artifact.Basic
import ComponentCompiler.Proofs.FileText

/-! The library of the scripts: the bundled one can be read, and what is read from any library has
line feeds alone. -/

namespace ComponentCompiler

lemma Disk.writeText_of_write {disk later : Disk} {path : Utf16} {text : Text}
    (h : disk.write path (Text.Utf8.encode text) = .ok later) :
    disk.writeText path (.ofText text) = (later, none) := by
  simp only [writeText, Utf16.encode_ofText, h]

namespace Fragment

lemma return_notMem_ofLines {lines : List String} (h : ∀ line ∈ lines, '\r' ∉ line.toList) :
    '\r' ∉ ofLines lines := by
  intro hm
  obtain ⟨line, hl, hc⟩ := List.mem_flatMap.mp hm
  rcases List.mem_append.mp hc with hc | hc
  · exact h line hl hc
  · exact absurd hc (by decide)

lemma return_notMem_files : ∀ file ∈ files, '\r' ∉ file.2 := by
  simp only [files, List.forall_mem_cons, List.not_mem_nil, false_implies, implies_true, and_true]
  and_intros
  all_goals
    apply return_notMem_ofLines
    simp only [List.forall_mem_cons, List.not_mem_nil, false_implies, implies_true, and_true]
    and_intros
  -- Each line is opened as a list of characters first: evaluating `String.toList` is slow.
  all_goals
    rw [String.toList_ofList]
    decide

lemma exists_writes (a b c : List UInt8) :
    ∃ disk₁ disk₂ disk₃, ((Disk.ofHome []).ensureDirectories directory).1.write
        (place (.ofString "prelude.js")) a = .ok disk₁ ∧
      disk₁.write (place (.ofString "initialize.js")) b = .ok disk₂ ∧
      disk₂.write (place (.ofString "boot.js")) c = .ok disk₃ ∧
      disk₃.read (place (.ofString "prelude.js")) = .ok a ∧
      disk₃.read (place (.ofString "initialize.js")) = .ok b ∧
      disk₃.read (place (.ofString "boot.js")) = .ok c :=
  ⟨_, _, _, rfl, rfl, rfl, rfl, rfl, rfl⟩

-- The texts are variables here, so that the disk is evaluated without them.
lemma read_shelve (a b c : Text) {name : String} {text : Text}
    (h : (name, text) ∈ [("prelude.js", a), ("initialize.js", b), ("boot.js", c)]) :
    (shelve [("prelude.js", a), ("initialize.js", b), ("boot.js", c)]).read
      (place (.ofString name)) = .ok (Text.Utf8.encode text) := by
  obtain ⟨disk₁, disk₂, disk₃, h₁, h₂, h₃, ha, hb, hc⟩ := exists_writes
    (Text.Utf8.encode a) (Text.Utf8.encode b) (Text.Utf8.encode c)
  have hdisk : shelve [("prelude.js", a), ("initialize.js", b), ("boot.js", c)] = disk₃ := by
    simp only [shelve, List.foldl_cons, List.foldl_nil, Disk.writeText_of_write h₁,
      Disk.writeText_of_write h₂, Disk.writeText_of_write h₃]
  rw [hdisk]
  simp only [List.mem_cons, List.not_mem_nil, or_false, Prod.mk.injEq] at h
  rcases h with ⟨rfl, rfl⟩ | ⟨rfl, rfl⟩ | ⟨rfl, rfl⟩
  · exact ha
  · exact hb
  · exact hc

lemma read_shelf {name : String} {text : Text} (h : (name, text) ∈ files) :
    shelf.read (place (.ofString name)) = .ok (Text.Utf8.encode text) := by
  rw [files] at h
  rw [shelf, files]
  exact read_shelve substitution startup boot h

end Fragment

namespace Library

def Readable (library : Library) : Prop :=
  ∃ scripts, library.scripts = .ok scripts

lemma read_bundled {name : String} {text : Text} (h : (name, text) ∈ Fragment.files) :
    bundled.read name = .ok text := by
  have hread := Disk.readText_of_read (Fragment.read_shelf h)
  rw [Text.unifyNewlines_eq_self_iff.mpr (Fragment.return_notMem_files _ h),
    Fragment.place] at hread
  simp only [read, bundled, hread]

lemma scripts_eq_ok_iff {library : Library} {scripts : Scripts} :
    library.scripts = .ok scripts ↔ library.read "prelude.js" = .ok scripts.frame.opening ∧
      library.read "initialize.js" = .ok scripts.frame.closing ∧
      library.read "boot.js" = .ok scripts.boot := by
  obtain ⟨⟨opening, closing⟩, boot⟩ := scripts
  rw [Library.scripts]
  cases library.read "prelude.js" with
  | error e => simp [bind, Except.bind]
  | ok a =>
    cases library.read "initialize.js" with
    | error e => simp [bind, Except.bind]
    | ok b =>
      cases library.read "boot.js" with
      | error e => simp [bind, Except.bind]
      | ok c => simp [bind, Except.bind, pure, Except.pure, and_assoc]

lemma scripts_eq_error {library : Library} {e : Failure} (h : library.scripts = .error e) :
    library.read "prelude.js" = .error e ∨ library.read "initialize.js" = .error e ∨
      library.read "boot.js" = .error e := by
  rw [scripts] at h
  cases hopening : library.read "prelude.js" with
  | error e' => simp_all [bind, Except.bind]
  | ok a =>
    cases hclosing : library.read "initialize.js" with
    | error e' => simp_all [bind, Except.bind]
    | ok b =>
      cases hboot : library.read "boot.js" <;> simp_all [bind, Except.bind, pure, Except.pure]

theorem scripts_bundled : bundled.scripts = .ok .bundled := by
  have hopening : ("prelude.js", Fragment.substitution) ∈ Fragment.files := .head _
  have hclosing : ("initialize.js", Fragment.startup) ∈ Fragment.files := .tail _ (.head _)
  have hboot : ("boot.js", Fragment.boot) ∈ Fragment.files := .tail _ (.tail _ (.head _))
  rw [scripts_eq_ok_iff, Scripts.bundled, Module.Frame.bundled]
  dsimp only
  exact ⟨read_bundled hopening, read_bundled hclosing, read_bundled hboot⟩

lemma readable_bundled : bundled.Readable :=
  ⟨_, scripts_bundled⟩

lemma return_notMem_read {library : Library} {name : String} {text : Text}
    (h : library.read name = .ok text) : '\r' ∉ text := by
  rw [read, Disk.readText] at h
  cases hr : library.disk.read (Path.join library.directory (.ofString name)) with
  | error e =>
    rw [hr] at h
    cases e <;> cases h
  | ok bytes =>
    rw [hr, Except.map] at h
    cases hd : Text.Utf8.decode bytes with
    | error fault =>
      rw [hd] at h
      cases h
    | ok s =>
      rw [hd] at h
      rw [← Except.ok.inj h]
      exact Text.return_notMem_unifyNewlines s

end Library

namespace Artifacts

variable {library : Library} {catalog : Catalog} {settings : Settings}

lemma compile_eq_ok_iff {artifacts : Artifacts} :
    compile library catalog settings = .ok artifacts ↔
      ∃ scripts, library.scripts = .ok scripts ∧ artifacts = make scripts catalog settings := by
  rw [compile]
  cases library.scripts <;> simp [Except.map, eq_comm]

lemma compile_eq_error_iff {e : Failure} :
    compile library catalog settings = .error e ↔ library.scripts = .error e := by
  rw [compile]
  cases library.scripts <;> simp [Except.map]

lemma compile_bundled (catalog : Catalog) (settings : Settings) :
    compile .bundled catalog settings = .ok (.ofCatalog catalog settings) :=
  compile_eq_ok_iff.mpr ⟨.bundled, Library.scripts_bundled, rfl⟩

end Artifacts

end ComponentCompiler
