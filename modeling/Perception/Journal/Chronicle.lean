import Perception.Settings.Chronicle

set_option autoImplicit false

/-! # The journal in the course of a program

A program sets its journal up once or many times, at levels of its own or at that of the settings,
and between these calls the settings and their files may change. A journal's chronicle lists what
came of each of these events (`Session.journalled`).
-/

namespace Perception

namespace Journal

/-- Something that happens around the journal. -/
inductive Event
  /-- The journal is set up, at a level or at that of the settings. -/
  | setUp (level : Datum)
  /-- Something happens around the settings. -/
  | settings (e : Settings.Event)

def Event.act : Event → SessionM Unit
  | setUp level => Session.setUpJournal level
  | settings e => (fun _ => ()) <$> e.act

/-- An event, the sessions before and after it, and whether it succeeded. -/
structure Record where
  event : Event
  before : Session
  outcome : Outcome Unit
  after : Session

end Journal

/-- What comes of some events, one after another, and the session after them. -/
def Session.journalled (s : Session) : List Journal.Event → List Journal.Record × Session
  | [] => ([], s)
  | e :: es =>
      let (outcome, t) := e.act.run s
      let (log, u) := journalled t es
      (⟨e, s, outcome, t⟩ :: log, u)

end Perception
