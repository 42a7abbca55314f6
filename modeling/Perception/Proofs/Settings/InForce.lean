import Perception.Proofs.Files.Reading
import Perception.Settings.Chronicle

set_option autoImplicit false

/-! # Settings in force

The settings in force are what one file held when it was last read, whatever has happened since
(`Settings.inForce_lastReading`). Which file an event reads is said by `Settings.Event.target`, and
what the file holds by `Settings.contentAt`. An event with such a file puts what it holds in force,
or fails and changes nothing (`Settings.Event.run_act_of_target`); other events leave the settings
in force alone (`Settings.Event.settings_run_act`).
-/

namespace Perception

open Session

namespace Settings

variable {s t : Session} {e : Event} {path : Option Path} {d : Datum} {f : Failure}

/-! ## What a settings file holds -/

/-- Why a settings file cannot be read: one that is missing is said to be. -/
def readingFailure (p : Path) : Failure → Failure
  | .system .missing _ => .settingsMissing p.toString
  | f => f

/-- What the text of the settings file at a path denotes, if there is one. -/
def denoted (p : Path) : Outcome String → Outcome Datum
  | .error f => .error (readingFailure p f)
  | .ok text =>
      match Yaml.read? text.toList with
      | .ok d => .ok d
      | .error fault => .error (settingsFailure fault)

/-- What the settings file at a path holds: the value that its text denotes. Without a path it is
the packaged settings. -/
def contentAt (h : Host) : Option Path → Outcome Datum
  | none => .ok packaged
  | some p => denoted p ((Host.readText p).run h).1

def namedFile (name : Option String) : Option Path :=
  (name.filter fun v => !v.isEmpty).map Path.ofString

/-- Reading a settings file gives what it holds and changes nothing. -/
theorem run_readSettings (path : Option Path) (s : Session) :
    (readSettings path).run s = (contentAt s.host path, s) := by
  cases path with
  | none => rfl
  | some p =>
      have htext := (Host.leaves_readText p).run_eq s.host
      show (readSettings (some p)).run s = (denoted p ((Host.readText p).run s.host).1, s)
      generalize ((Host.readText p).run s.host).1 = o at htext
      have hrun : (onHost (Host.readText p)).run s = (o, s) := by
        show (((Host.readText p).run s.host).1,
          { s with host := ((Host.readText p).run s.host).2 }) = (o, s)
        rw [htext]
      cases o with
      | ok text =>
          refine (Outcome.run_bind_ok (Outcome.run_tryCatch_ok hrun)).trans ?_
          cases hparse : Yaml.read? text.toList <;> simp only [denoted, hparse] <;> rfl
      | error f =>
          refine Outcome.run_bind_error ((Outcome.run_tryCatch_error hrun).trans ?_)
          cases f with
          | system cause q => cases cause <;> rfl
          | _ => rfl

/-! ## Loading settings -/

def fileFor (path : Option Path) (s : Session) : Option Path :=
  path.or (namedFile s.settingsVariable)

/-- Loading settings gives them with what their file holds and changes nothing. -/
theorem run_loadSettings (path : Option Path) (s : Session) :
    (loadSettings path).run s
      = ((contentAt s.host (fileFor path s)).map (Settings.mk (fileFor path s)), s) := by
  have hread := run_readSettings (fileFor path s) s
  have hload : (loadSettings path).run s
      = ((readSettings (fileFor path s)) >>= fun d =>
          (pure ⟨fileFor path s, d⟩ : SessionM Settings)).run s := by
    cases path <;> rfl
  rw [hload]
  cases hc : contentAt s.host (fileFor path s) with
  | ok d =>
      rw [hc] at hread
      exact Outcome.run_bind_ok hread
  | error f =>
      rw [hc] at hread
      exact Outcome.run_bind_error hread

/-- Settings that are in force are handed out as they are. -/
theorem run_openSettings_inForce {now : Settings} (h : s.settings = some now) :
    (openSettings none).run s = (.ok now, s) := by
  have hget : (get : SessionM Session).run s = (.ok s, s) := rfl
  unfold openSettings
  rw [Outcome.run_bind_ok hget, h]
  rfl

/-- What is loaded where no settings are in force, or those of a file are asked for, comes into
force. -/
theorem run_openSettings_loaded (hload : path ≠ none ∨ s.settings = none) :
    (openSettings path).run s
      = match contentAt s.host (fileFor path s) with
        | .ok d => (.ok ⟨fileFor path s, d⟩, { s with settings := some ⟨fileFor path s, d⟩ })
        | .error f => (.error f, s) := by
  have hget : (get : SessionM Session).run s = (.ok s, s) := rfl
  have hrun : (openSettings path).run s = (do
      let loaded ← loadSettings path
      modify fun t => { t with settings := some loaded }
      return loaded : SessionM Settings).run s := by
    unfold openSettings
    rw [Outcome.run_bind_ok hget]
    cases path with
    | some p => rfl
    | none =>
        rw [hload.resolve_left (fun hne => hne rfl)]
  have hloaded := run_loadSettings path s
  rw [hrun]
  cases hc : contentAt s.host (fileFor path s) with
  | ok d =>
      rw [hc] at hloaded
      exact Outcome.run_bind_ok hloaded
  | error f =>
      rw [hc] at hloaded
      exact Outcome.run_bind_error hloaded

/-- The settings in force, or those that come into force, are read from their file. -/
theorem run_reloadSettings
    (hpath : (s.settings.map Settings.path).getD (namedFile s.settingsVariable) = path) :
    reloadSettings.run s
      = match contentAt s.host path with
        | .ok d => (.ok (), { s with settings := some ⟨path, d⟩ })
        | .error f => (.error f, s) := by
  unfold reloadSettings
  cases hs : s.settings with
  | some now =>
      obtain rfl : now.path = path := by simpa [hs] using hpath
      have hread := run_readSettings now.path s
      rw [Outcome.run_bind_ok (run_openSettings_inForce hs)]
      cases hc : contentAt s.host now.path with
      | ok d =>
          rw [hc] at hread
          exact (Outcome.run_bind_ok hread).trans rfl
      | error f =>
          rw [hc] at hread
          exact Outcome.run_bind_error hread
  | none =>
      obtain rfl : fileFor none s = path := by simpa [hs, fileFor] using hpath
      have hopen := @run_openSettings_loaded s none (Or.inr hs)
      cases hc : contentAt s.host (fileFor none s) with
      | ok d =>
          rw [hc] at hopen
          -- the file is read once more, and still holds the same
          have hread := run_readSettings (fileFor none s)
            { s with settings := some ⟨fileFor none s, d⟩ }
          rw [hc] at hread
          rw [Outcome.run_bind_ok hopen]
          exact (Outcome.run_bind_ok hread).trans rfl
      | error f =>
          rw [hc] at hopen
          exact Outcome.run_bind_error hopen

/-! ## What an event does -/

/-- The file whose settings an event puts in force unless it fails, none if it puts none in force.
It depends on the file of the settings in force, if there are any, and on the one that the
surroundings name. -/
def Event.target (current : Option (Option Path)) (named : Option Path) :
    Event → Option (Option Path)
  | ask (some p) => some (some p)
  | ask none =>
      match current with
      | some _ => none
      | none => some named
  | reload => some (current.getD named)
  | files _ => none
  | surroundings _ => none
  | loadApart _ => none

/-- The file whose settings an event puts in force in a session. -/
def Event.targetIn (e : Event) (s : Session) : Option (Option Path) :=
  e.target (s.settings.map Settings.path) (namedFile s.settingsVariable)

/-- **An event that puts settings in force** puts what its file holds in force, or fails as the file
cannot be read and changes nothing. -/
theorem Event.run_act_of_target (h : e.targetIn s = some path) :
    match contentAt s.host path with
    | .ok d => ∃ x, e.act.run s = (.ok x, { s with settings := some ⟨path, d⟩ })
    | .error f => e.act.run s = (.error f, s) := by
  cases e with
  | files tree => cases h
  | surroundings name => cases h
  | loadApart asked => cases h
  | reload =>
      have hrun := run_reloadSettings (Option.some.inj h)
      cases hc : contentAt s.host path with
      | ok d =>
          rw [hc] at hrun
          exact ⟨none, Outcome.run_bind_ok hrun⟩
      | error f =>
          rw [hc] at hrun
          exact Outcome.run_bind_error hrun
  | ask asked =>
      -- there is a file to read only where one is asked for or none is in force
      obtain ⟨hload, rfl⟩ : (asked ≠ none ∨ s.settings = none) ∧ fileFor asked s = path := by
        cases asked with
        | some p => exact ⟨Or.inl nofun, Option.some.inj h⟩
        | none =>
            cases hs : s.settings with
            | some now => simp [targetIn, target, hs] at h
            | none => exact ⟨Or.inr rfl, by simpa [targetIn, target, fileFor, hs] using h⟩
      have hrun := run_openSettings_loaded hload
      unfold act
      rw [Outcome.run_map, hrun]
      cases contentAt s.host (fileFor asked s) with
      | ok d => exact ⟨_, rfl⟩
      | error f => rfl

/-- Other events leave the settings in force alone. -/
theorem Event.settings_run_act (h : e.targetIn s = none) :
    (e.act.run s).2.settings = s.settings := by
  cases e with
  | files tree => rfl
  | surroundings name => rfl
  | loadApart asked =>
      unfold act
      rw [Outcome.run_map, run_loadSettings]
  | reload => cases h
  | ask asked =>
      obtain ⟨rfl, now, hnow⟩ : asked = none ∧ ∃ now, s.settings = some now := by
        cases asked with
        | some p => cases h
        | none =>
            cases hs : s.settings with
            | some now => exact ⟨rfl, now, rfl⟩
            | none => simp [targetIn, target, hs] at h
      unfold act
      rw [Outcome.run_map, run_openSettings_inForce hnow]

/-- What becomes of the settings in force when an event meets a session. -/
structure Event.Effect (e : Event) (s : Session) (outcome : Outcome (Option Settings))
    (t : Session) : Prop where
  /-- What a file holds comes into force. -/
  loaded : ∀ path d, e.targetIn s = some path → contentAt s.host path = .ok d →
    (∃ x, outcome = .ok x) ∧ t.settings = some ⟨path, d⟩
  /-- A file that cannot be read is a failure. -/
  refused : ∀ path f, e.targetIn s = some path → contentAt s.host path = .error f →
    outcome = .error f
  /-- What fails changes nothing. -/
  failed : ∀ f, outcome = .error f → t.settings = s.settings
  /-- Settings of another file come into force if they are asked for, or, as the first ones, if the
  surroundings name that file. -/
  moved : t.settings.map Settings.path ≠ s.settings.map Settings.path →
    (∃ p x, e = .ask (some p) ∧ outcome = .ok x ∧ t.settings.map Settings.path = some (some p)) ∨
    (s.settings = none ∧ (e = .ask none ∨ e = .reload) ∧
      t.settings.map Settings.path = some (namedFile s.settingsVariable))
  /-- Nothing else but an event that is to put settings in force does so. -/
  others : e.targetIn s = none → t.settings = s.settings
  /-- Settings that are asked for are those in force then. -/
  handed : ∀ path x, e = .ask path → outcome = .ok x → t.settings = x
  /-- Settings that are in force can always be asked for. -/
  kept : ∀ now, s.settings = some now → e = .ask none →
    outcome = .ok (some now) ∧ t.settings = some now

/-- Settings that are asked for without a file are those in force, if there are any. -/
theorem Event.run_ask_inForce {now : Settings} (h : s.settings = some now) :
    (ask none).act.run s = (.ok (some now), s) := by
  unfold act
  rw [Outcome.run_map, run_openSettings_inForce h]
  rfl

/-- Settings that are handed out are in force. -/
theorem Event.settings_of_ask {asked : Option Path} {x : Option Settings}
    (h : ((ask asked).act.run s).1 = .ok x) : ((ask asked).act.run s).2.settings = x := by
  by_cases hload : asked ≠ none ∨ s.settings = none
  · have hrun := run_openSettings_loaded hload
    unfold act at h ⊢
    rw [Outcome.run_map, hrun] at h ⊢
    cases hc : contentAt s.host (fileFor asked s) with
    | ok d =>
        rw [hc] at h
        cases h
        rfl
    | error f =>
        rw [hc] at h
        cases h
  · obtain ⟨hasked, hs⟩ := not_or.mp hload
    obtain rfl := Decidable.not_not.mp hasked
    obtain ⟨now, hnow⟩ := Option.ne_none_iff_exists'.mp hs
    rw [run_ask_inForce hnow] at h ⊢
    cases h
    exact hnow

/-- What an event that puts settings in force does to the path of those in force. -/
theorem Event.moved_of_target (h : e.targetIn s = some path)
    (hne : some path ≠ s.settings.map Settings.path) :
    (∃ p, e = .ask (some p) ∧ path = some p) ∨
      (s.settings = none ∧ (e = .ask none ∨ e = .reload) ∧ path = namedFile s.settingsVariable) := by
  cases e with
  | files tree => cases h
  | surroundings name => cases h
  | loadApart asked => cases h
  | ask asked =>
      cases asked with
      | some p => exact Or.inl ⟨p, rfl, (Option.some.inj h).symm⟩
      | none =>
          cases hs : s.settings with
          | some now => simp [targetIn, target, hs] at h
          | none =>
              have hpath : namedFile s.settingsVariable = path := by
                simpa [targetIn, target, hs] using h
              exact Or.inr ⟨rfl, Or.inl rfl, hpath.symm⟩
  | reload =>
      cases hs : s.settings with
      | some now =>
          have hpath : now.path = path := by simpa [targetIn, target, hs] using h
          rw [hs, ← hpath] at hne
          exact absurd rfl hne
      | none =>
          have hpath : namedFile s.settingsVariable = path := by
            simpa [targetIn, target, hs] using h
          exact Or.inr ⟨rfl, Or.inr rfl, hpath.symm⟩

theorem Event.effect (e : Event) (s : Session) : e.Effect s (e.act.run s).1 (e.act.run s).2 where
  loaded := by
    intro path d ht hc
    have hrun := run_act_of_target ht
    rw [hc] at hrun
    obtain ⟨x, hrun⟩ := hrun
    rw [hrun]
    exact ⟨⟨x, rfl⟩, rfl⟩
  refused := by
    intro path f ht hc
    have hrun := run_act_of_target ht
    rw [hc] at hrun
    exact congrArg Prod.fst hrun
  failed := by
    intro f hf
    cases ht : e.targetIn s with
    -- without a file to read, the settings are not touched
    | none => exact settings_run_act ht
    | some path =>
        have hrun := run_act_of_target ht
        cases hc : contentAt s.host path with
        | ok d =>
            rw [hc] at hrun
            obtain ⟨x, hrun⟩ := hrun
            rw [hrun] at hf
            cases hf
        | error f' =>
            rw [hc] at hrun
            exact congrArg (fun r => r.2.settings) hrun
  moved := by
    intro hne
    cases ht : e.targetIn s with
    | none => exact absurd (congrArg _ (settings_run_act ht)) hne
    | some path =>
        have hrun := run_act_of_target ht
        cases hc : contentAt s.host path with
        | ok d =>
            rw [hc] at hrun
            obtain ⟨x, hrun⟩ := hrun
            rw [hrun] at hne ⊢
            -- the file was asked for, or it is the first one that is ever read
            rcases moved_of_target ht hne with ⟨p, he, rfl⟩ | ⟨hs, he, rfl⟩
            · exact Or.inl ⟨p, x, he, rfl, rfl⟩
            · exact Or.inr ⟨hs, he, rfl⟩
        | error f =>
            rw [hc] at hrun
            dsimp only at hrun
            rw [hrun] at hne
            exact absurd rfl hne
  others := fun ht => settings_run_act ht
  handed := by
    rintro asked x rfl hx
    exact settings_of_ask hx
  kept := by
    rintro now hs rfl
    rw [run_ask_inForce hs]
    exact ⟨rfl, hs⟩

/-! ## Runs -/

/-- A settings file that was read, and the machine on which it was. -/
structure Reading where
  path : Option Path
  host : Host

/-- The last reading after one more record: a new one if the event put settings in force. -/
def Record.reading (last : Option Reading) (r : Record) : Option Reading :=
  match r.event.target (last.map Reading.path) (namedFile r.before.settingsVariable), r.outcome with
  | some path, .ok _ => some ⟨path, r.before.host⟩
  | _, _ => last

/-- The last reading that put settings in force, according to a log. -/
def lastReading (log : List Record) : Option Reading := log.foldl Record.reading none

/-- Settings are what a file held when it was read; there are none if none was. -/
def AreRead (now : Option Settings) : Option Reading → Prop
  | none => now = none
  | some r => ∃ d, contentAt r.host r.path = .ok d ∧ now = some ⟨r.path, d⟩

variable {last : Option Reading}

theorem AreRead.path_eq {now : Option Settings} (h : AreRead now last) :
    last.map Reading.path = now.map Settings.path := by
  cases last with
  | none => exact congrArg (Option.map Settings.path) (Eq.symm h)
  | some r =>
      obtain ⟨d, -, rfl⟩ := h
      rfl

/-- **An event** leaves the settings in force what a file held when it was last read. -/
theorem AreRead.act (h : AreRead s.settings last) (e : Event) :
    AreRead (e.act.run s).2.settings (Record.reading last ⟨e, s, (e.act.run s).1⟩) := by
  have htarget : e.target (last.map Reading.path) (namedFile s.settingsVariable) = e.targetIn s := by
    rw [h.path_eq]
    rfl
  unfold Record.reading
  dsimp only
  rw [htarget]
  cases ht : e.targetIn s with
  | none =>
      rw [Event.settings_run_act ht]
      exact h
  | some path =>
      have hrun := Event.run_act_of_target ht
      cases hc : contentAt s.host path with
      | ok d =>
          rw [hc] at hrun
          obtain ⟨x, hrun⟩ := hrun
          rw [hrun]
          exact ⟨d, hc, rfl⟩
      | error f =>
          rw [hc] at hrun
          dsimp only at hrun
          rw [hrun]
          exact h

/-- **A run** leaves the settings in force what a file held when it was last read. -/
theorem AreRead.chronicle (h : AreRead s.settings last) (es : List Event) :
    AreRead (s.chronicle es).2.settings ((s.chronicle es).1.foldl Record.reading last) := by
  induction es generalizing s last with
  | nil => exact h
  | cons e es ih => exact ih (h.act e)

/-- **The settings in force are what one file held when it was last read.** No settings are in force
at the start. After any run of events they are what the file held that was last read to put settings
in force, or there are none if none was read. The next event has the effect on them that it should
have; what fails has none. -/
theorem inForce_lastReading (hs : s.settings = none) (es : List Event) :
    let log := (s.chronicle es).1
    let now := (s.chronicle es).2
    AreRead now.settings (lastReading log) ∧
      ∀ e : Event, e.Effect now (e.act.run now).1 (e.act.run now).2 := by
  intro log now
  have hstart : AreRead s.settings none := hs
  exact ⟨hstart.chronicle es, fun e => e.effect now⟩

/-! One run: the surroundings name a file, which is read, edited and read again. Then they name
none, the file is edited once more, and another file, which is missing, is asked for. -/

def sampleFile : Path := ⟨.relative, ["settings"]⟩

def sampleFiles (text : Bytes) : FileTree := ⟨[(["settings"], .file (.bytes text))]⟩

def sampleStart : Session := .start (.offline ⟨[]⟩)

def sampleRun : List Event :=
  [.surroundings (some "settings"), .files (sampleFiles [55]), .ask none,
    .files (sampleFiles [56]), .reload, .surroundings none, .files (sampleFiles [57]), .ask none,
    .ask (some ⟨.relative, ["missing"]⟩)]

/-- The settings in force are what the file held when it was read again. -/
theorem inForce_lastReading_edited :
    sampleStart.settings = none ∧
      (sampleStart.chronicle sampleRun).2.settings = some ⟨some sampleFile, .int 8⟩ ∧
      lastReading (sampleStart.chronicle sampleRun).1
        = some ⟨some sampleFile, { sampleStart.host with tree := sampleFiles [56] }⟩ ∧
      AreRead (sampleStart.chronicle sampleRun).2.settings
        (lastReading (sampleStart.chronicle sampleRun).1) :=
  ⟨rfl, rfl, rfl, (inForce_lastReading rfl sampleRun).1⟩

end Settings

end Perception
