import ComponentCompiler.Proofs.RunOutcomes
import ComponentCompiler.Session
import Mathlib.Data.List.Induction

/-! The life of a run in a session. Whatever is done in a session, each of its runs is as it was
begun, or done, or failed; it never leaves the last two states, and no run touches another. A run
that has a catalog and no artifacts was executed when the scripts could not be read. -/

namespace ComponentCompiler

namespace Run

def Consistent (run : Run) : Prop :=
  match run.phase with
  | .idle => run.catalog = .empty ∧ run.artifacts? = none ∧ run.written = []
  | .done =>
    run.artifacts?.isSome = true ∧
      run.written = [modulePath run.settings, htmlPath run.settings]
  | .failed =>
    (run.written = [] ∨ run.written = [modulePath run.settings]) ∧
      (run.written ≠ [] → run.artifacts?.isSome = true)
  | _ => False

lemma Consistent.eq_new {run : Run} (h : run.Consistent) (hi : run.phase = .idle) :
    run = { settings := run.settings } := by
  obtain ⟨settings, phase, catalog, artifacts?, written⟩ := run
  obtain rfl : phase = .idle := hi
  obtain ⟨hc, ha, hw⟩ := h
  simp_all

lemma written_of_write {disk later : Disk} {settings : Settings} {artifacts : Artifacts}
    {written : List Utf16} {e : Failure}
    (h : write disk settings artifacts = ⟨later, written, some e⟩) :
    written = [] ∨ written = [modulePath settings] := by
  rcases write_eq_some h with ⟨hw, -⟩ | ⟨-, -, ⟨hw, -⟩ | ⟨hw, -⟩⟩
  · exact Or.inl hw
  · exact Or.inl hw
  · exact Or.inr hw

lemma execute_new_consistent (library : Library) (settings : Settings) (disk : Disk) :
    (execute { settings } library disk).run.Consistent ∧
      (execute { settings } library disk).run.settings = settings ∧
      (execute { settings } library disk).run.phase ≠ .idle := by
  have h := executes_execute library settings disk
  generalize execute { settings } library disk = outcome at h ⊢
  cases h with
  | unlisted hs => exact ⟨⟨Or.inl rfl, fun hn => (hn rfl).elim⟩, rfl, by simp [fail]⟩
  | unread hs hu => exact ⟨⟨Or.inl rfl, fun hn => (hn rfl).elim⟩, rfl, by simp [fail]⟩
  | unbuilt hs hu hb => exact ⟨⟨Or.inl rfl, fun hn => (hn rfl).elim⟩, rfl, by simp [fail]⟩
  | unwritten hs hu hb hw => exact ⟨⟨written_of_write hw, fun _ => rfl⟩, rfl, by simp [fail]⟩
  | done hs hu hb hw =>
    obtain ⟨-, -, -, -, -, -, -, rfl⟩ := write_eq_none_iff.mp hw
    exact ⟨⟨rfl, rfl⟩, rfl, by simp⟩

lemma execute_consistent {run : Run} (h : run.Consistent) (library : Library) (disk : Disk) :
    (run.execute library disk).run.Consistent ∧
      (run.execute library disk).run.settings = run.settings ∧
      (run.execute library disk).run.phase ≠ .idle := by
  by_cases hi : run.phase = .idle
  · rw [h.eq_new hi]
    exact execute_new_consistent library run.settings disk
  · rw [execute_of_ne_idle hi]
    exact ⟨h, rfl, hi⟩

def Complete (run : Run) : Prop :=
  run.artifacts? = none → run.catalog = .empty

lemma execute_complete {run : Run} (h : run.Consistent) (hc : run.Complete) {library : Library}
    (hl : library.Readable) (disk : Disk) : (run.execute library disk).run.Complete := by
  by_cases hi : run.phase = .idle
  · rw [h.eq_new hi]
    have hx := executes_execute library run.settings disk
    generalize execute { settings := run.settings } library disk = outcome at hx ⊢
    cases hx with
    | unlisted hs => exact fun _ => rfl
    | unread hs hu => exact fun _ => rfl
    | unbuilt hs hu hb =>
      obtain ⟨scripts, hscripts⟩ := hl
      cases hscripts.symm.trans (Artifacts.compile_eq_error_iff.mp hb)
    | unwritten hs hu hb hw => exact nofun
    | done hs hu hb hw => exact nofun
  · rw [execute_of_ne_idle hi]
    exact hc

-- Without its scripts a run keeps the catalog that it has registered, here of the one file `a.zmx`.
example :
    let run := (execute {} ⟨.ofHome [], []⟩
      ((Disk.ofHome []).put [⟨[0x61, 0x2e, 0x7a, 0x6d, 0x78], rfl⟩] (.file []))).run
    (run.phase, run.catalog.size, run.artifacts?) = (.failed, 1, none) := by
  decide +kernel

end Run

namespace Session

inductive Operation where
  | begin (name : Text) (settings : Settings)
  | execute (name : Text)
  | compile (settings : Settings)
  | build (path : Utf16)
  | setVerbose (verbose : Bool)
  | change (disk : Disk)
  | reinstall (library : Library)

def perform (session : Session) : Operation → Session
  | .begin name settings => session.begin name settings
  | .execute name => ((session.execute? name).map Step.session).getD session
  | .compile settings => (session.compile settings).session
  | .build path => (session.build path).session
  | .setVerbose verbose => { session with verbose }
  | .change disk => { session with disk }
  | .reinstall library => { session with library }

def performAll (session : Session) (ops : List Operation) : Session :=
  ops.foldl perform session

lemma execute?_of_find? {session : Session} {name : Text} {run : Run}
    (h : session.runs.find? name = some run) :
    session.execute? name = some {
      session := { session with
        disk := (run.execute session.library session.disk).disk
        runs := session.runs.put name (run.execute session.library session.disk).run }
      log := logText session.verbose (run.execute session.library session.disk).notices
      result := (run.execute session.library session.disk).result } := by
  rw [execute?, h]
  rfl

def Served (start : Session) (ops : List Operation) (name : Text) : Prop :=
  ∀ before after, ops = before ++ .execute name :: after →
    (start.performAll before).library.Readable

lemma Served.of_concat {start : Session} {ops : List Operation} {op : Operation} {name : Text}
    (h : Served start (ops ++ [op]) name) : Served start ops name := by
  rintro before after rfl
  exact h before (after ++ [op]) (by simp)

/-- The run under a name goes back to the last time one was begun under it, and has been executed
since unless it is idle. -/
structure Traced (start : Session) (ops : List Operation) (name : Text) (run : Run) : Prop where
  consistent : run.Consistent
  complete : Served start ops name → run.Complete
  origin : ∃ before after, ops = before ++ .begin name run.settings :: after ∧
    (∀ settings, .begin name settings ∉ after) ∧ (run.phase = .idle ↔ .execute name ∉ after)

lemma Traced.execute {start : Session} {ops : List Operation} {name : Text} {run : Run}
    (h : Traced start ops name run) (disk : Disk) :
    Traced start (ops ++ [.execute name]) name
      (run.execute (start.performAll ops).library disk).run := by
  obtain ⟨hc, hs, hp⟩ := Run.execute_consistent h.consistent (start.performAll ops).library disk
  refine ⟨hc, fun hserved => ?_, ?_⟩
  · exact Run.execute_complete h.consistent (h.complete hserved.of_concat)
      (hserved ops [] rfl) disk
  · obtain ⟨before, after, rfl, hbegin, -⟩ := h.origin
    refine ⟨before, after ++ [.execute name], by simp [hs], ?_, ?_⟩
    · intro settings hm
      exact hbegin settings (by simpa using hm)
    · simp [hp]

lemma performAll_concat (session : Session) (ops : List Operation) (op : Operation) :
    session.performAll (ops ++ [op]) = (session.performAll ops).perform op :=
  List.foldl_concat ..

end Session

end ComponentCompiler
