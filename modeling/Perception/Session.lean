import Perception.Audio.Backend
import Perception.Datum.Shown
import Perception.Journal.Root
import Perception.Random.Streams
import Perception.Settings.Basic
import Perception.Web.Host
import Perception.Yaml.Value

set_option autoImplicit false

/-! # Sessions

What lasts from one call of the library to the next: the machine, the randomness, the settings once
they are read, the root of the journal and the audio backend once it is chosen. Settings are read
from a named file, or else from the file that the surroundings name, or else they are the packaged
ones (`Session.openSettings`).
-/

namespace Perception

/-- What has been printed, and what has been complained about, line by line. -/
structure Console where
  printed : List String
  complaints : List String

structure Session where
  host : Host
  streams : Random.Streams
  /-- The settings file that the surroundings name. -/
  settingsVariable : Option String
  settings : Option Settings
  root : JournalRoot
  backend : Option Audio.Backend
  offers : List (String × Audio.Offer)
  console : Console

/-- Computations in a session, which may fail. What they changed before failing stays changed. -/
abbrev SessionM := ExceptT Failure (StateM Session)

namespace Session

/-- A session on a machine, with nothing chosen yet. -/
def start (host : Host) : Session :=
  ⟨host, .ofSeed 0, none, none, .initial, none, Audio.standardOffers, ⟨[], []⟩⟩

def onHost {α : Type} (x : HostM α) : SessionM α := fun s =>
  let (a, host) := x.run s.host
  (a, { s with host := host })

def ofOutcome {α : Type} : Outcome α → SessionM α
  | .ok a => pure a
  | .error e => throw e

def note (severity : Severity) (source text : String) : SessionM Unit :=
  onHost (Host.note severity source text)

def print (line : String) : SessionM Unit :=
  modify fun s => { s with console := { s.console with printed := s.console.printed ++ [line] } }

def complain (line : String) : SessionM Unit :=
  modify fun s =>
    { s with console := { s.console with complaints := s.console.complaints ++ [line] } }

/-- The path that a loose value names: only texts are paths. -/
def pathOf (d : Datum) : SessionM Path :=
  match d with
  | .text s => pure (Path.ofString s)
  | _ => throw (.plain .type)

/-- What the fault of a settings file is to its reader. -/
def settingsFailure : Yaml.Fault → Failure
  | .malformed => .settingsInvalid
  | .unfit kind => .plain kind

def readSettings (path : Option Path) : SessionM Datum := do
  match path with
  | none => return Settings.packaged
  | some p =>
      let text ← tryCatch (onHost (Host.readText p)) fun
        | .system .missing _ => throw (.settingsMissing p.toString)
        | e => throw e
      match Yaml.read? text.toList with
      | .ok d => return d
      | .error f => throw (settingsFailure f)

/-- Settings from a named file, from the one that the surroundings name, or the packaged ones. -/
def loadSettings (path : Option Path) : SessionM Settings := do
  let named := (← get).settingsVariable.filter fun v => !v.isEmpty
  let path := path.orElse fun _ => named.map Path.ofString
  return ⟨path, ← readSettings path⟩

/-- The settings in force. Naming a file puts its settings in force; without one they are read on
first use. -/
def openSettings (path : Option Path) : SessionM Settings := do
  match path, (← get).settings with
  | none, some s => return s
  | path, _ =>
      let s ← loadSettings path
      modify fun t => { t with settings := some s }
      return s

def reloadSettings : SessionM Unit := do
  let s ← openSettings none
  let d ← readSettings s.path
  modify fun t => { t with settings := some { s with content := d } }

def setting (value : Settings → Outcome Datum) : SessionM Datum := do
  ofOutcome (value (← openSettings none))

/-- Sets the journal up at a level, or at that of the settings. -/
def setUpJournal (level : Datum) : SessionM Unit := do
  let level ← match level with
    | .null => setting Settings.logLevel
    | l => pure l
  let s ← get
  let (root, outcome) := s.root.setUp level
  set { s with root := root }
  ofOutcome outcome

def seed (d : Datum) : SessionM Unit := do
  let i ← ofOutcome (Random.Streams.seedOf d)
  let s ← get
  let (streams, outcome) := s.streams.seed i
  set { s with streams := streams }
  ofOutcome outcome

end Session

end Perception
