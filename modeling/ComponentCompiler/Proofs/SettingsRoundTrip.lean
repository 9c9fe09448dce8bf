import ComponentCompiler.Proofs.SettingsChecking

/-! Settings that are written into a file and loaded again: nothing is lost if what the file leaves
out are defaults, in whatever order and with whatever spaces it gives the rest. -/

namespace ComponentCompiler.Settings

def Setting.plain (settings : Settings) : Setting → Json.Plain
  | .text field => .text (settings.get field)
  | .verbose => .truth settings.verbose

def written (settings : Settings) (given : List Setting) : List Json.Lexeme :=
  Json.Plain.object (given.map fun setting => (.ofText setting.key, setting.plain settings))

def writtenPairs (settings : Settings) (given : List Setting) : List (Text × Json) :=
  given.map fun setting => (setting.key, (setting.plain settings).value)

variable {settings : Settings} {given : List Setting}

lemma holds_of_written {text : Text} (h : Json.Laid (settings.written given) text) :
    Json.Holds text (spelt (settings.writtenPairs given)) := by
  have hholds := Json.Plain.holds_of_laid h
  rw [List.map_map] at hholds
  rwa [spelt, writtenPairs, List.map_map]

lemma Setting.hasValue_plain (setting : Setting) :
    setting.HasValue settings (setting.plain settings).value := by
  cases setting with
  | text field => rfl
  | verbose => exact .bool _

lemma Setting.takes_plain (setting : Setting) : setting.Takes (setting.plain settings).value := by
  cases setting with
  | text field => exact ⟨_, rfl⟩
  | verbose => exact ⟨_, .bool _⟩

lemma exists_of_gives {k : Text} {v : Json}
    (h : Keyed.Gives (settings.writtenPairs given) k v) :
    ∃ setting : Setting, setting.key = k ∧ (setting.plain settings).value = v := by
  obtain ⟨before, after, hp, -⟩ := h
  have hm : (k, v) ∈ settings.writtenPairs given := by
    rw [hp]
    exact List.mem_append_cons_self
  obtain ⟨setting, -, he⟩ := List.mem_map.mp hm
  exact ⟨setting, Prod.mk.inj he⟩

lemma not_offends_written (k : Text) : ¬ Offends (settings.writtenPairs given) k := by
  rintro ⟨v, hv, hbad⟩
  obtain ⟨setting, hk, rfl⟩ := exists_of_gives hv
  exact hbad setting hk setting.takes_plain

lemma key_mem_written_iff {setting : Setting} :
    setting.key ∈ (settings.writtenPairs given).map Prod.fst ↔ setting ∈ given := by
  rw [writtenPairs, List.map_map]
  constructor
  · intro h
    obtain ⟨other, hm, hk⟩ := List.mem_map.mp h
    rwa [← Setting.key_injective hk]
  · intro h
    exact List.mem_map.mpr ⟨setting, h, rfl⟩

lemma settles_written_iff :
    Settles (settings.writtenPairs given) settings ↔
      ∀ setting, setting ∉ given → setting.Agrees settings default := by
  constructor
  · intro h setting hs
    exact h.other setting (mt key_mem_written_iff.mp hs)
  · intro h
    refine ⟨?_, fun setting hs => h setting (mt key_mem_written_iff.mpr hs)⟩
    intro setting v hv
    obtain ⟨other, hk, rfl⟩ := exists_of_gives hv
    obtain rfl := Setting.key_injective hk
    exact other.hasValue_plain

theorem load_written_iff {disk later : Disk} {path : Utf16} {text : Text}
    (hw : Run.writeArtifact disk path (.ofText text) = (later, none))
    (ht : Json.Laid (settings.written given) text) :
    load later path = .ok settings ↔
      ∀ setting, setting ∉ given → setting.Agrees settings default := by
  have hread := Run.readText_of_writeArtifact hw
  have hholds := holds_of_written ht.unifyNewlines
  rw [load_eq_ok_iff hread hholds, settles_written_iff]
  exact and_iff_right not_offends_written

def quotedTitle : Settings :=
  { title := .ofString "\"\r\n\x01😀", verbose := true }

def quotedTitleText : Text :=
  "\r\n\x7b\"verbose\":true,\"title\":\"\\\"\\r\\n\\u0001\\ud83d\\ude00\"\x7d".toList

theorem load_quotedTitle :
    Run.writeArtifact (.ofHome []) filename (.ofText quotedTitleText) =
        (fileDisk quotedTitleText, none) ∧
      Json.Laid (quotedTitle.written [.verbose, .text .title]) quotedTitleText ∧
      load (fileDisk quotedTitleText) filename = .ok quotedTitle := by
  have hw : Run.writeArtifact (.ofHome []) filename (.ofText quotedTitleText) =
      (fileDisk quotedTitleText, none) :=
    Run.writeArtifact_eq_none_iff.mpr ⟨_, Utf16.encode_ofText _, rfl⟩
  have hlaid : Json.Laid (quotedTitle.written [.verbose, .text .title]) quotedTitleText :=
    .space rfl (.space rfl (.of_texts rfl (by decide +kernel)))
  refine ⟨hw, hlaid, (load_written_iff hw hlaid).mpr ?_⟩
  intro setting hs
  cases setting with
  | text field =>
    cases field
    case title => exact absurd hs (by decide)
    all_goals rfl
  | verbose => exact absurd hs (by decide)

end ComponentCompiler.Settings
