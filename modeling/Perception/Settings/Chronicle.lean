import Perception.Session

set_option autoImplicit false

/-! # Settings in the course of a program

What can happen around the settings while a program runs: files are written and removed, the
surroundings name another settings file, and the settings are asked for, read again, or loaded apart
from those in force. A chronicle lists what came of some of these events, one after another
(`Session.chronicle`).
-/

namespace Perception

namespace Settings

/-- Something that happens around the settings. -/
inductive Event
  /-- Files are written or removed; these are there afterwards. -/
  | files (tree : FileTree)
  /-- The surroundings name a settings file, or none. -/
  | surroundings (name : Option String)
  /-- Settings are asked for: those of a file, which come into force, or those in force. -/
  | ask (path : Option Path)
  /-- The settings in force are read again. -/
  | reload
  /-- Settings are loaded apart from those in force. -/
  | loadApart (path : Option Path)

def Event.act : Event → SessionM (Option Settings)
  | files tree => do
      modify fun s => { s with host := { s.host with tree := tree } }
      return none
  | surroundings name => do
      modify fun s => { s with settingsVariable := name }
      return none
  | ask path => some <$> Session.openSettings path
  | reload => do
      Session.reloadSettings
      return none
  | loadApart path => some <$> Session.loadSettings path

/-- An event, the session that it met, and what came of it. -/
structure Record where
  event : Event
  before : Session
  outcome : Outcome (Option Settings)

end Settings

/-- What comes of some events, one after another, and the session after them. -/
def Session.chronicle (s : Session) : List Settings.Event → List Settings.Record × Session
  | [] => ([], s)
  | e :: es =>
      let (outcome, t) := e.act.run s
      let (log, t) := chronicle t es
      (⟨e, s, outcome⟩ :: log, t)

end Perception
