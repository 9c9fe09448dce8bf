import ComponentCompiler.Proofs.DiskFrame
import ComponentCompiler.Proofs.RunOutcomes

/-! What a run does to the disk, however it ends. It touches nothing before it writes; then it adds
the output directory and writes the two artifacts, and no more. -/

namespace ComponentCompiler.Run

open Disk (Changes)

lemma writeArtifact_changes (disk : Disk) (path text : Utf16) :
    Changes [] [path] disk (writeArtifact disk path text).1 := by
  rw [writeArtifact, Disk.writeText]
  dsimp only
  split
  · next hw => exact Disk.write_changes hw
  · exact Changes.refl _ _ disk

lemma writeFiles_changes (disk : Disk) (files : List (Utf16 × Utf16)) :
    Changes [] (files.map Prod.fst) disk (writeFiles disk files).disk := by
  induction files generalizing disk with
  | nil => exact Changes.refl _ _ disk
  | cons file files ih =>
    obtain ⟨path, text⟩ := file
    have hfirst := (writeArtifact_changes disk path text).mono (List.Subset.refl _)
      (show [path] ⊆ path :: files.map Prod.fst by simp)
    rw [writeFiles]
    split
    · next hw =>
      rw [hw] at hfirst
      exact hfirst
    · next mid hw =>
      rw [hw] at hfirst
      exact hfirst.trans ((ih mid).mono (List.Subset.refl _) (List.subset_cons_self path _))

def madePaths (settings : Settings) : List Utf16 :=
  settings.outputDir :: Path.ancestors settings.outputDir

def writtenPaths (settings : Settings) : List Utf16 :=
  [modulePath settings, htmlPath settings]

lemma write_changes (disk : Disk) (settings : Settings) (artifacts : Artifacts) :
    Changes (madePaths settings) (writtenPaths settings) disk
      (write disk settings artifacts).disk := by
  have hmade := (Disk.ensureDirectories_changes disk settings.outputDir).mono
    (List.Subset.refl (madePaths settings)) (List.nil_subset (writtenPaths settings))
  rw [write]
  split
  · next hd =>
    rw [hd] at hmade
    exact hmade
  · next mid hd =>
    rw [hd] at hmade
    have hfiles := writeFiles_changes mid (outputs settings artifacts)
    exact hmade.trans (hfiles.mono (List.nil_subset _) (List.Subset.refl _))

lemma execute_changes (library : Library) (settings : Settings) (disk : Disk) :
    Changes (madePaths settings) (writtenPaths settings) disk
      (execute { settings } library disk).disk := by
  have h := executes_execute library settings disk
  generalize execute { settings } library disk = outcome at h ⊢
  cases h with
  | unlisted hs => exact Changes.refl _ _ disk
  | unread hs hu => exact Changes.refl _ _ disk
  | unbuilt hs hu hb => exact Changes.refl _ _ disk
  | @unwritten _ _ artifacts _ _ _ hs hu hb hw =>
    have hc := write_changes disk settings artifacts
    rw [hw] at hc
    exact hc
  | @done _ _ artifacts _ _ hs hu hb hw =>
    have hc := write_changes disk settings artifacts
    rw [hw] at hc
    exact hc

lemma writeArtifact_eq_some_iff {disk later : Disk} {path text : Utf16} {e : Failure} :
    writeArtifact disk path text = (later, some e) ↔
      (∃ refusal, disk.write path (text.encode.toOption.getD []) = .error refusal ∧ later = disk ∧
        e = refusal.failure "write artifact".toList path) ∨
      ∃ fault, text.encode = .error fault ∧ disk.write path [] = .ok later ∧
        e = .unencodable fault := by
  rw [writeArtifact, Disk.writeText]
  cases text.encode with
  | error fault =>
    have hnone : (Except.error fault : Except _ (List UInt8)).toOption.getD [] = [] := rfl
    rw [hnone]
    cases hw : disk.write path [] with
    | error refusal => simp [hw, eq_comm]
    | ok mid => simp [hw, eq_comm, Disk.Error.failure]
  | ok bytes =>
    have hsome : (Except.ok bytes : Except Utf16.Fault _).toOption.getD [] = bytes := rfl
    rw [hsome]
    cases hw : disk.write path bytes with
    | error refusal => simp [hw, eq_comm]
    | ok mid => simp [hw]

/-- The file of the document cannot be opened: the module is written, what stood at the document's
path still does, and there is no file where there was none. -/
structure DocumentRefused (disk : Disk) (settings : Settings) (artifacts : Artifacts)
    (outcome : Outcome) : Prop where
  module : outcome.disk.object? (modulePath settings) =
    some (.file (Text.Utf8.encode artifacts.moduleText))
  unchanged : ∀ entry, disk.object? (htmlPath settings) = some entry →
    outcome.disk.object? (htmlPath settings) = some entry
  absent : disk.object? (htmlPath settings) = none →
    ∀ content, outcome.disk.object? (htmlPath settings) ≠ some (.file content)

/-- The document has no bytes: its file is opened and left empty. -/
structure DocumentEmptied (settings : Settings) (artifacts : Artifacts) (outcome : Outcome) :
    Prop where
  unencodable : ∃ fault, artifacts.documentText.encode = .error fault ∧
    outcome.result = .error (.unencodable fault)
  emptied : outcome.disk.object? (htmlPath settings) = some (.file [])
  module : outcome.disk.object? (modulePath settings) =
      some (.file (Text.Utf8.encode artifacts.moduleText)) ∨
    ∃ place, outcome.disk.locate (modulePath settings) = .ok place ∧
      outcome.disk.locate (htmlPath settings) = .ok place

variable {disk mid later : Disk} {settings : Settings} {artifacts : Artifacts} {outcome : Outcome}

lemma documentRefused_of_write {bytes : List UInt8} {refusal : Disk.Error}
    (hk : disk.Keeps outcome.disk) (ht : outcome.disk.IsTree)
    (hm : mid.write (modulePath settings) (Text.Utf8.encode artifacts.moduleText) =
      .ok outcome.disk)
    (hw : outcome.disk.write (htmlPath settings) bytes = .error refusal) :
    DocumentRefused disk settings artifacts outcome := by
  -- A file at the path would have taken the bytes.
  have hfile : ∀ content, outcome.disk.object? (htmlPath settings) ≠ some (.file content) := by
    intro content ho
    obtain ⟨later, hl⟩ := ht.exists_write ho bytes
    cases hw.symm.trans hl
  refine ⟨Disk.object?_of_write hm, fun entry he => ?_, fun _ => hfile⟩
  cases entry with
  | directory => exact hk.object?_directory he
  | file content =>
    obtain ⟨content', ho⟩ := hk.object?_file he
    exact (hfile content' ho).elim

lemma object?_of_changes {path other : Utf16} {content : List UInt8}
    (hc : Changes [] [path] disk later) (ho : disk.object? other = some (.file content)) :
    later.object? other = some (.file content) ∨
      ∃ place, later.locate other = .ok place ∧ later.locate path = .ok place := by
  obtain ⟨place, hl, hf⟩ := Disk.object?_eq_some_iff.mp ho
  have hl' := hc.keeps.locate hl
  rw [Disk.entryAt?] at hf
  split at hf
  · next hlost =>
    obtain ⟨location, lost⟩ := place
    obtain rfl : lost = 0 := hlost
    rcases hc.entry location with he | ⟨hn, -⟩ | ⟨-, -, p, hp, hp'⟩
    · left
      rw [Disk.object?_of_locate hl', he]
      exact hf
    · cases hn.symm.trans hf
    · obtain rfl := List.mem_singleton.mp hp
      exact Or.inr ⟨_, hl', hp'⟩
  · cases hf

lemma document_of_write {e : Failure} (ht : disk.IsTree)
    (hw : write disk settings artifacts = ⟨outcome.disk, [modulePath settings], some e⟩)
    (he : outcome.result = .error e) :
    DocumentRefused disk settings artifacts outcome ∨
      DocumentEmptied settings artifacts outcome := by
  have hc := write_changes disk settings artifacts
  rw [hw] at hc
  obtain ⟨hnil, -⟩ | ⟨disk₁, -, ⟨hnil, -⟩ | ⟨-, disk₂, hm, hd⟩⟩ := write_eq_some hw
  · cases hnil
  · cases hnil
  · obtain ⟨refusal, hr, rfl, -⟩ | ⟨fault, hf, hopen, rfl⟩ := writeArtifact_eq_some_iff.mp hd
    · exact Or.inl (documentRefused_of_write hc.keeps (hc.tree ht) hm hr)
    · refine Or.inr ⟨⟨fault, hf, he⟩, Disk.object?_of_write hopen, ?_⟩
      exact object?_of_changes (Disk.write_changes hopen) (Disk.object?_of_write hm)

lemma Executes.document {library : Library} (ht : disk.IsTree)
    (hx : Executes library settings disk outcome) (hp : outcome.run.phase = .failed)
    (hw : outcome.run.written = [modulePath settings]) :
    ∃ artifacts, outcome.run.artifacts? = some artifacts ∧
      (DocumentRefused disk settings artifacts outcome ∨
        DocumentEmptied settings artifacts outcome) := by
  cases hx with
  | unlisted hs => cases hw
  | unread hs hu => cases hw
  | unbuilt hs hu hb => cases hw
  | unwritten hs hu hb hwrite =>
    obtain rfl : _ = [modulePath settings] := hw
    exact ⟨_, rfl, document_of_write ht hwrite rfl⟩
  | done hs hu hb hwrite => cases hp

end ComponentCompiler.Run
