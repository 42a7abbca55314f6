import Perception.Audio.Selection

set_option autoImplicit false

/-! # The audio backend in the course of a program

A program asks for its audio backend and puts another one in force, or none, and in between all else
in the session may change: settings and their files, what is on offer, the journal. A log lists what
came of each of these events (`Session.listened`).
-/

namespace Perception

namespace Audio

inductive Event
  /-- The backend in force is asked for. -/
  | get
  /-- A backend is put in force, or none. -/
  | set (b : Option Backend)
  /-- Something else happens, which leaves the backend in force as it is. -/
  | other (change : Session → Session)

def Event.act : Event → SessionM (Option Backend)
  | get => some <$> Session.audioBackend
  | set b => do
      Session.setAudioBackend b
      return none
  | other change => do
      modify fun s => { change s with backend := s.backend }
      return none

structure Record where
  event : Event
  outcome : Outcome (Option Backend)

end Audio

/-- What comes of some events, one after another, and the session after them. -/
def Session.listened (s : Session) : List Audio.Event → List Audio.Record × Session
  | [] => ([], s)
  | e :: es =>
      let (outcome, t) := e.act.run s
      let (log, u) := listened t es
      (⟨e, outcome⟩ :: log, u)

end Perception
