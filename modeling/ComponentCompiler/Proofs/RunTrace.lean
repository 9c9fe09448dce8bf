import ComponentCompiler.Proofs.RunLifecycle
import Mathlib.Tactic.IntervalCases

/-! What a run tells of itself. The notices follow it from phase to phase and name each unit that it
registers; whether they are shown changes nothing but the error stream. -/

namespace ComponentCompiler

namespace Phase

def course : List Phase :=
  [.idle, .discovering, .extracting, .building, .writing, .done]

def steps : List (Phase × Phase) :=
  course.zip course.tail

def stopped (n : Nat) (during : Phase) : List (Phase × Phase) :=
  steps.take n ++ [(during, .failed)]

lemma stopped_chain {n : Nat} {during : Phase} (hn : 0 < n) (hlast : n < steps.length)
    (hd : course[n]? = some during) :
    (stopped n during).head?.map Prod.fst = some .idle ∧
      (stopped n during).IsChain (fun earlier later => earlier.2 = later.1) ∧
      ((∃ before, (before, building) ∈ stopped n during) ↔ 2 < n) := by
  have hlast : n < 5 := hlast
  interval_cases n <;> cases hd <;> simp [stopped, steps, course]

end Phase

namespace Notice

def transition? : Notice → Option (Phase × Phase)
  | .entered before after => some (before, after)
  | _ => none

def registration? : Notice → Option (Utf16 × List Text)
  | .registered name propNames => some (name, propNames)
  | _ => none

def transitions (notices : List Notice) : List (Phase × Phase) :=
  notices.filterMap transition?

def registrations (notices : List Notice) : List (Utf16 × List Text) :=
  notices.filterMap registration?

lemma transitions_append (notices more : List Notice) :
    transitions (notices ++ more) = transitions notices ++ transitions more :=
  List.filterMap_append

lemma registrations_append (notices more : List Notice) :
    registrations (notices ++ more) = registrations notices ++ registrations more :=
  List.filterMap_append

lemma transitions_concat (notices : List Notice) (before after : Phase) :
    transitions (notices ++ [.entered before after]) = transitions notices ++ [(before, after)] :=
  transitions_append notices _

lemma registrations_concat (notices : List Notice) (before after : Phase) :
    registrations (notices ++ [.entered before after]) = registrations notices := by
  rw [registrations_append]
  exact List.append_nil _

lemma transitions_ofUnit (units : List SourceUnit) : transitions (units.map ofUnit) = [] := by
  apply List.filterMap_eq_nil_iff.mpr
  intro notice hm
  obtain ⟨unit, -, rfl⟩ := List.mem_map.mp hm
  rfl

lemma registrations_ofUnit (units : List SourceUnit) :
    registrations (units.map ofUnit) =
      units.map fun unit => (unit.name, Template.propNames unit.template) := by
  have hunit : registration? ∘ ofUnit =
      some ∘ fun unit => (unit.name, Template.propNames unit.template) := by
    funext unit
    rfl
  rw [registrations, List.filterMap_map, hunit, List.filterMap_eq_map]

end Notice

namespace Run

open Notice

def Registers (disk : Disk) (settings : Settings)
    (registrations : List (Utf16 × List Text)) : Prop :=
  ∃ filenames,
    Discovery.sources disk settings.sourceDir settings.sourceSuffix settings.entryName =
      .ok filenames ∧
    List.Forall₂ (fun filename registration =>
      registration.1 = Discovery.componentName settings.sourceSuffix filename ∧
        ∃ text, Discovery.readSource disk (Path.join settings.sourceDir filename) = .ok text ∧
          registration.2 = Template.propNames (Section.template.body text))
      filenames registrations

structure Tells (disk : Disk) (settings : Settings) (result : Except Failure (List Utf16))
    (notices : List Notice) : Prop where
  start : (transitions notices).head?.map Prod.fst = some .idle
  chain : (transitions notices).IsChain fun earlier later => earlier.2 = later.1
  done : ∀ written, result = .ok written → transitions notices = Phase.steps
  failed : ∀ e, result = .error e → ∃ n during, 0 < n ∧ n < Phase.steps.length ∧
    Phase.course[n]? = some during ∧
    transitions notices = Phase.stopped n during
  registered : (∃ before, (before, Phase.building) ∈ transitions notices) →
    Registers disk settings (registrations notices)
  unregistered : (∀ before, (before, Phase.building) ∉ transitions notices) →
    registrations notices = []

lemma transitions_begun : transitions begun = Phase.steps.take 1 :=
  rfl

lemma transitions_found (settings : Settings) (filenames : List Utf16) :
    transitions (found settings filenames) = Phase.steps.take 2 :=
  rfl

lemma transitions_registered (settings : Settings) (filenames : List Utf16)
    (units : List SourceUnit) :
    transitions (registered settings filenames units) = Phase.steps.take 3 := by
  rw [registered, transitions_append, transitions_found]
  change _ ++ (_ :: transitions (units.map Notice.ofUnit)) = _
  rw [transitions_ofUnit]
  rfl

lemma transitions_built (settings : Settings) (filenames : List Utf16) (units : List SourceUnit) :
    transitions (built settings filenames units) = Phase.steps.take 4 := by
  rw [built, transitions_concat, transitions_registered]
  rfl

lemma registers_registered {disk : Disk} {settings : Settings} {filenames : List Utf16}
    {units : List SourceUnit}
    (hs : Discovery.sources disk settings.sourceDir settings.sourceSuffix settings.entryName =
      .ok filenames)
    (hu : filenames.mapM (readUnit disk settings) = .ok units) :
    Registers disk settings (registrations (registered settings filenames units)) := by
  have hunits : registrations (registered settings filenames units) =
      units.map fun unit => (unit.name, Template.propNames unit.template) := by
    rw [registered, registrations_append]
    exact registrations_ofUnit units
  refine ⟨filenames, hs, ?_⟩
  rw [hunits, List.forall₂_map_right_iff]
  apply (mapM_eq_ok_iff.mp hu).imp
  intro filename unit hf
  obtain ⟨text, ht, rfl⟩ := readUnit_eq_ok hf
  exact ⟨rfl, text, ht, rfl⟩

lemma tells_fail {disk : Disk} {settings : Settings} {notices : List Notice} {during : Phase}
    {n : Nat} (e : Failure) (hn : 0 < n) (hlast : n < Phase.steps.length)
    (hd : Phase.course[n]? = some during) (ht : transitions notices = Phase.steps.take n)
    (hbuilding : 2 < n → Registers disk settings (registrations notices))
    (hearlier : n ≤ 2 → registrations notices = []) :
    Tells disk settings (.error e) (notices ++ [.entered during .failed]) := by
  have hall : transitions (notices ++ [.entered during .failed]) = Phase.stopped n during := by
    rw [transitions_concat, ht, Phase.stopped]
  obtain ⟨hstart, hchain, hentered⟩ := Phase.stopped_chain hn hlast hd
  refine ⟨?_, ?_, ?_, ?_, ?_, ?_⟩
  · rw [hall]
    exact hstart
  · rw [hall]
    exact hchain
  · intro written h
    cases h
  · intro e' _
    exact ⟨n, during, hn, hlast, hd, hall⟩
  · intro h
    rw [hall] at h
    rw [registrations_concat]
    exact hbuilding (hentered.mp h)
  · intro h
    rw [hall] at h
    rw [registrations_concat]
    apply hearlier
    by_contra hlt
    obtain ⟨before, hm⟩ := hentered.mpr (by omega)
    exact h before hm

lemma tells_execute (library : Library) (settings : Settings) (disk : Disk) :
    Tells disk settings (execute { settings } library disk).result
      (execute { settings } library disk).notices := by
  have hx := executes_execute library settings disk
  generalize execute { settings } library disk = outcome at hx ⊢
  cases hx with
  | unlisted hs =>
    apply tells_fail _ (by decide) (by decide) rfl transitions_begun
    · intro h
      exact absurd h (by decide)
    · intro _
      rfl
  | unread hs hu =>
    apply tells_fail _ (by decide) (by decide) rfl (transitions_found _ _)
    · intro h
      exact absurd h (by decide)
    · intro _
      rfl
  | unbuilt hs hu hb =>
    apply tells_fail _ (by decide) (by decide) rfl (transitions_registered _ _ _)
    · intro _
      exact registers_registered hs hu
    · intro h
      exact absurd h (by decide)
  | unwritten hs hu hb hw =>
    apply tells_fail _ (by decide) (by decide) rfl (transitions_built _ _ _)
    · intro _
      rw [built, registrations_concat]
      exact registers_registered hs hu
    · intro h
      exact absurd h (by decide)
  | @done filenames units artifacts later written hs hu hb hw =>
    have hall : transitions (built settings filenames units ++ [.entered .writing .done]) =
        Phase.steps := by
      rw [transitions_concat, transitions_built]
      rfl
    refine ⟨?_, ?_, ?_, ?_, ?_, ?_⟩
    · rw [hall]
      rfl
    · rw [hall]
      decide
    · intro _ _
      exact hall
    · intro e h
      cases h
    · intro _
      rw [registrations_concat, built, registrations_concat]
      exact registers_registered hs hu
    · intro h
      rw [hall] at h
      exact absurd (h .extracting) (by decide)

end Run

namespace Session

theorem execute?_verbose (session : Session) (name : Text) (settings : Settings) :
    ∃ (quiet loud : Step (List Utf16)) (notices : List Notice),
      ({ session with verbose := false }.begin name settings).execute? name = some quiet ∧
      ({ session with verbose := true }.begin name settings).execute? name = some loud ∧
      loud.result = quiet.result ∧ loud.session = { quiet.session with verbose := true } ∧
      quiet.log = [] ∧ loud.log = notices.flatMap Notice.line ∧
      Run.Tells session.disk settings loud.result notices := by
  have hfind : ∀ verbose, ({ session with verbose }.begin name settings).runs.find? name =
      some { settings } := by
    intro verbose
    exact Keyed.find?_put_self _ _ _
  refine ⟨_, _, _, execute?_of_find? (hfind false), execute?_of_find? (hfind true), rfl, rfl, rfl,
    rfl, ?_⟩
  exact Run.tells_execute session.library settings session.disk

end Session

end ComponentCompiler
