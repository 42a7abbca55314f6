import Perception.Datum.Listed
import Perception.Session

set_option autoImplicit false

/-! # Choosing an audio backend

The first of some candidates that can be set up is chosen; those before it that cannot be used are
journalled and passed over. The backend in force is chosen once and kept until another one is put in
its place.
-/

namespace Perception.Session

def audioSource : String := "modalkit.modality.audio.factory"

def setUpOffer : Audio.Offer → SessionM Audio.Backend
  | .plain => return .plain
  | .resampling => return .resampling (← setting Settings.audioRate)
  | .other name => return .other name
  | .failing kind => throw (.plain kind)

def setUpCandidate (candidate : Datum) : SessionM Audio.Backend := do
  match candidate with
  | .text name =>
      match (← get).offers.lookup name with
      | some offer => setUpOffer offer
      | none => throw (.plain .absentModule)
  | _ => throw (.plain .attribute)

/-- The first candidate that can be set up, by some way of setting candidates up. -/
def firstUsable (setUp : Datum → SessionM Audio.Backend) : List Datum → SessionM Audio.Backend
  | [] => throw .noAudioBackend
  | candidate :: rest => do
      let b? ← tryCatch (some <$> setUp candidate) fun e =>
        if Audio.meansUnavailable e.kind then pure none else throw e
      match b? with
      | some b => do
          note .debug audioSource s!"Using audio factory {candidate.shown}"
          return b
      | none => do
          note .debug audioSource s!"Audio factory {candidate.shown} unavailable"
          firstUsable setUp rest

def firstBackend : List Datum → SessionM Audio.Backend := firstUsable setUpCandidate

/-- A backend from among candidates; without them, from among those that the settings name, or the
standard ones. -/
def newBackend (candidates : Datum) : SessionM Audio.Backend := do
  let candidates ← match candidates with
    | .null => do
        let d ← setting Settings.audioBackends
        pure (if d.isTruthy then d else .list (Audio.standardNames.map .text))
    | d => pure d
  firstBackend (← ofOutcome candidates.listed)

/-- The backend in force, which is chosen on first use. -/
def audioBackend : SessionM Audio.Backend := do
  match (← get).backend with
  | some b => return b
  | none => do
      let b ← newBackend .null
      modify fun s => { s with backend := some b }
      return b

def setAudioBackend (b : Option Audio.Backend) : SessionM Unit :=
  modify fun s => { s with backend := b }

end Perception.Session
