import ComponentCompiler.CommandLine
import ComponentCompiler.Proofs.RunFailures

/-! How a call without arguments ends: with zero when the run is done, with one when a failure is
the compiler's own report, and without an exit code when it is none. -/

namespace ComponentCompiler

namespace Settings

inductive Unloaded (disk : Disk) (path : Utf16) : Failure → Prop
  | undecodable {fault : Text.Utf8.Fault} (h : disk.Undecodable path fault) :
      Unloaded disk path (.undecodable fault)
  | oversized {bytes : List UInt8} {text : Text} {digits : Nat} (hr : disk.read path = .ok bytes)
      (hd : Text.Utf8.decode bytes = .ok text)
      (hj : Json.read (Text.unifyNewlines text) = .error (.oversized digits)) :
      Unloaded disk path (.oversized digits)

variable {disk : Disk} {path : Utf16} {e : Failure}

lemma ofText_foreign_iff {text : Text} :
    ofText path text = .error e ∧ e.Foreign ↔
      ∃ digits, Json.read text = .error (.oversized digits) ∧ e = .oversized digits := by
  rw [ofText]
  constructor
  · rintro ⟨h, hf⟩
    split at h
    · cases h
      exact False.elim hf
    · next digits hj => exact ⟨digits, hj, (Except.error.inj h).symm⟩
    · next members hj =>
      cases hm : ofMembers members with
      | error bad =>
        rw [hm] at h
        cases h
        exact False.elim hf
      | ok settings =>
        rw [hm] at h
        cases h
    · cases h
      exact False.elim hf
  · rintro ⟨digits, hj, rfl⟩
    rw [hj]
    exact ⟨rfl, trivial⟩

lemma load_of_read {bytes : List UInt8} (h : disk.read path = .ok bytes) :
    load disk path =
      match Text.Utf8.decode bytes with
      | .ok text => ofText path (Text.unifyNewlines text)
      | .error fault => .error (.undecodable fault) := by
  rw [load, if_pos (Disk.has_of_read h), Disk.readText, h]
  cases hd : Text.Utf8.decode bytes <;> simp [Except.map, hd]

lemma not_foreign_of_unread {error : Disk.Error} (hr : disk.read path = .error error)
    (h : load disk path = .error e) : ¬ e.Foreign := by
  intro hf
  rw [load] at h
  split at h
  · next hhas =>
    have hspelt : ¬ error.PassedOn e := fun hp =>
      Disk.not_misspelt_of_has hhas ((Disk.read_misspelt_iff disk).mp ⟨error, hr, hp⟩)
    rw [Disk.readText, hr] at h
    cases error with
    | refused fault =>
      cases h
      exact hf
    | unencodable fault =>
      cases h
      exact hspelt (.unencodable fault)
    | nullByte =>
      cases h
      exact hspelt .nullByte
  · cases h

lemma load_foreign_iff : load disk path = .error e ∧ e.Foreign ↔ Unloaded disk path e := by
  cases hr : disk.read path with
  | error error =>
    constructor
    · rintro ⟨h, hf⟩
      exact (not_foreign_of_unread hr h hf).elim
    · rintro (⟨_, h, -⟩ | ⟨h, -⟩)
      · cases hr.symm.trans h
      · cases hr.symm.trans h
  | ok bytes =>
    rw [load_of_read hr]
    cases hd : Text.Utf8.decode bytes with
    | error fault =>
      constructor
      · rintro ⟨h, -⟩
        cases h
        exact .undecodable ⟨bytes, hr, hd⟩
      · rintro (⟨_, hr', hd'⟩ | ⟨hr', hd', -⟩)
        · cases hr.symm.trans hr'
          cases hd.symm.trans hd'
          exact ⟨rfl, trivial⟩
        · cases hr.symm.trans hr'
          cases hd.symm.trans hd'
    | ok text =>
      dsimp only
      rw [ofText_foreign_iff]
      constructor
      · rintro ⟨digits, hj, rfl⟩
        exact .oversized hr hd hj
      · rintro (⟨_, hr', hd'⟩ | ⟨hr', hd', hj⟩)
        · cases hr.symm.trans hr'
          cases hd.symm.trans hd'
        · cases hr.symm.trans hr'
          cases hd.symm.trans hd'
          exact ⟨_, hj, rfl⟩

end Settings

namespace CommandLine

open Utf16 (ofString)

def report (d : Diagnostic) : Utf16 :=
  ofString "Error: Compilation Failed:\n" ++ d.message ++ ofString "\n"

inductive Escapes (library : Library) (disk : Disk) : Failure → Prop
  | settings {e : Failure} (h : Settings.Unloaded disk Settings.filename e) : Escapes library disk e
  | run {settings : Settings} {e : Failure}
      (hl : Settings.load disk Settings.filename = .ok settings)
      (h : Run.Breaks library disk settings e) : Escapes library disk e

lemma build_of_unloaded {session : Session} {path : Utf16} {e : Failure}
    (h : Settings.load session.disk path = .error e) :
    session.build path = { session, result := .error e } := by
  rw [Session.build, h]

lemma build_of_loaded {session : Session} {path : Utf16} {settings : Settings}
    (h : Settings.load session.disk path = .ok settings) :
    (session.build path).log =
        logText settings.verbose (Run.execute { settings } session.library session.disk).notices ∧
      (session.build path).result =
        (Run.execute { settings } session.library session.disk).result := by
  rw [Session.build, h]
  exact ⟨rfl, rfl⟩

lemma build_eq_ok_iff {session : Session} {path : Utf16} {written : List Utf16} :
    (session.build path).result = .ok written ↔ ∃ settings,
      Settings.load session.disk path = .ok settings ∧
        (Run.execute { settings } session.library session.disk).result = .ok written := by
  cases hl : Settings.load session.disk path with
  | error e => simp [build_of_unloaded hl]
  | ok settings => simp [(build_of_loaded hl).2]

lemma build_eq_error_iff {session : Session} {path : Utf16} {e : Failure} :
    (session.build path).result = .error e ↔ Settings.load session.disk path = .error e ∨
      ∃ settings, Settings.load session.disk path = .ok settings ∧
        (Run.execute { settings } session.library session.disk).result = .error e := by
  cases hl : Settings.load session.disk path with
  | error e => simp [build_of_unloaded hl]
  | ok settings => simp [(build_of_loaded hl).2]

lemma build_foreign_iff {session : Session} {e : Failure} :
    (session.build Settings.filename).result = .error e ∧ e.Foreign ↔
      Escapes session.library session.disk e := by
  rw [build_eq_error_iff]
  constructor
  · rintro ⟨hl | ⟨settings, hl, hx⟩, hf⟩
    · exact .settings (Settings.load_foreign_iff.mp ⟨hl, hf⟩)
    · exact .run hl (Run.execute_foreign_iff.mp ⟨hx, hf⟩)
  · rintro (h | ⟨hl, h⟩)
    · obtain ⟨hl, hf⟩ := Settings.load_foreign_iff.mpr h
      exact ⟨Or.inl hl, hf⟩
    · obtain ⟨hx, hf⟩ := Run.execute_foreign_iff.mpr h
      exact ⟨Or.inr ⟨_, hl, hx⟩, hf⟩

lemma compile_cases (session : Session) :
    (∃ written, (session.build Settings.filename).result = .ok written ∧
      compile session =
        { session := (session.build Settings.filename).session
          log := (session.build Settings.filename).log ++ written.flatMap announcement
          exit := .ok 0 }) ∨
    (∃ d, (session.build Settings.filename).result = .error (.diagnosed d) ∧
      compile session =
        { session := (session.build Settings.filename).session
          log := (session.build Settings.filename).log ++ report d
          exit := .ok 1 }) ∨
    ∃ e, (session.build Settings.filename).result = .error e ∧ e.Foreign ∧
      compile session =
        { session := (session.build Settings.filename).session
          log := (session.build Settings.filename).log
          exit := .error e } := by
  cases hr : (session.build Settings.filename).result with
  | ok written => exact Or.inl ⟨written, rfl, by simp [compile, hr]⟩
  | error e =>
    right
    cases e with
    | diagnosed d => exact Or.inl ⟨d, rfl, by simp [compile, hr, report]⟩
    | undecodable fault => exact Or.inr ⟨_, rfl, trivial, by simp [compile, hr]⟩
    | unencodable fault => exact Or.inr ⟨_, rfl, trivial, by simp [compile, hr]⟩
    | nullByte => exact Or.inr ⟨_, rfl, trivial, by simp [compile, hr]⟩
    | oversized digits => exact Or.inr ⟨_, rfl, trivial, by simp [compile, hr]⟩
    | system e => exact Or.inr ⟨_, rfl, trivial, by simp [compile, hr]⟩

structure Exits (library : Library) (disk : Disk) (result : Result) : Prop where
  output : result.output = []
  code : ∀ n, result.exit = .ok n → n = 0 ∨ n = 1
  done : result.exit = .ok 0 ↔ ∃ settings, Settings.load disk Settings.filename = .ok settings ∧
    (Run.execute { settings } library disk).run.phase = .done
  announced : ∀ settings, Settings.load disk Settings.filename = .ok settings →
    (Run.execute { settings } library disk).run.phase = .done →
      (Run.execute { settings } library disk).run.written =
        [Run.modulePath settings, Run.htmlPath settings] ∧
      result.log = logText settings.verbose (Run.execute { settings } library disk).notices ++
        (Run.execute { settings } library disk).run.written.flatMap announcement
  reported : result.exit = .ok 1 → ∃ d notices, result.log = notices ++ report d ∧
    (Settings.load disk Settings.filename = .error (.diagnosed d) ∧ notices = [] ∨
      ∃ settings, Settings.load disk Settings.filename = .ok settings ∧
        (Run.execute { settings } library disk).result = .error (.diagnosed d) ∧
        notices = logText settings.verbose (Run.execute { settings } library disk).notices)
  escaped : ∀ e, result.exit = .error e ↔ Escapes library disk e

lemma exists_build_iff {session : Session} :
    (∃ written, (session.build Settings.filename).result = .ok written) ↔
      ∃ settings, Settings.load session.disk Settings.filename = .ok settings ∧
        (Run.execute { settings } session.library session.disk).run.phase = .done := by
  simp only [build_eq_ok_iff, Run.phase_execute_eq_done_iff]
  exact ⟨fun ⟨w, s, hl, hx⟩ => ⟨s, hl, w, hx⟩, fun ⟨s, hl, w, hx⟩ => ⟨w, s, hl, hx⟩⟩

lemma not_done_of_build {session : Session} {e : Failure}
    (he : (session.build Settings.filename).result = .error e) :
    ¬ ∃ settings, Settings.load session.disk Settings.filename = .ok settings ∧
      (Run.execute { settings } session.library session.disk).run.phase = .done := by
  intro hd
  obtain ⟨written, hw⟩ := exists_build_iff.mpr hd
  cases he.symm.trans hw

theorem call_exits (program : Text) (session : Session) :
    Exits session.library session.disk (call program [] session) := by
  have hcall : call program [] session = compile session := rfl
  rw [hcall]
  rcases compile_cases session with ⟨written, hr, hc⟩ | ⟨d, hr, hc⟩ | ⟨e, hr, hf, hc⟩
  · rw [hc]
    refine ⟨rfl, fun n hn => Or.inl (Except.ok.inj hn).symm, ?_, ?_, ?_, ?_⟩
    · exact ⟨fun _ => exists_build_iff.mp ⟨written, hr⟩, fun _ => rfl⟩
    · intro settings hl hd
      obtain ⟨hlog, hresult⟩ := build_of_loaded hl
      obtain ⟨hwritten, hpaths⟩ := Run.written_of_result (hresult.symm.trans hr)
      exact ⟨hwritten.trans hpaths, by rw [hlog, hwritten]⟩
    · intro h
      cases h
    · refine fun e => ⟨nofun, fun h => ?_⟩
      cases hr.symm.trans (build_foreign_iff.mpr h).1
  · rw [hc]
    refine ⟨rfl, fun n hn => Or.inr (Except.ok.inj hn).symm,
      ⟨nofun, fun h => (not_done_of_build hr h).elim⟩,
      fun settings hl hd => (not_done_of_build hr ⟨settings, hl, hd⟩).elim, ?_, ?_⟩
    · intro _
      refine ⟨d, _, rfl, ?_⟩
      rcases build_eq_error_iff.mp hr with hl | ⟨settings, hl, hx⟩
      · exact Or.inl ⟨hl, by rw [build_of_unloaded hl]⟩
      · exact Or.inr ⟨settings, hl, hx, (build_of_loaded hl).1⟩
    · refine fun e => ⟨nofun, fun h => ?_⟩
      obtain ⟨he, hf⟩ := build_foreign_iff.mpr h
      cases hr.symm.trans he
      exact False.elim hf
  · rw [hc]
    refine ⟨rfl, nofun, ⟨nofun, fun h => (not_done_of_build hr h).elim⟩,
      fun settings hl hd => (not_done_of_build hr ⟨settings, hl, hd⟩).elim, nofun, fun e' => ?_⟩
    rw [← build_foreign_iff]
    constructor
    · intro h
      cases h
      exact ⟨hr, hf⟩
    · rintro ⟨h, -⟩
      cases hr.symm.trans h
      rfl

/-- A directory with one source, `bad.zmx`, that is no UTF-8. -/
def badDisk : Disk where
  entries := [([⟨[0x62, 0x61, 0x64, 0x2e, 0x7a, 0x6d, 0x78], rfl⟩], .file [0xff])]
  home := ⟨[], 0⟩
  nodup := List.nodup_singleton _

theorem call_escapes_undecodable :
    (call "zmx".toList [] { disk := badDisk }).exit =
      .error (.undecodable ⟨.badStart, 0, 0xff, 1⟩) := by
  decide +kernel

end CommandLine

end ComponentCompiler
