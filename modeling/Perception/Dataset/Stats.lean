import Perception.Datum.Listed
import Perception.Datum.Number
import Perception.Json.Reader
import Perception.Session

set_option autoImplicit false

/-! # Channel statistics

Means and deviations of the three channels, read from a file. They are divided by the greatest value
of a pixel, if the file names one.
-/

namespace Perception

/-- Means and deviations, one of each for every channel. -/
structure ChannelStats where
  mean : List Float
  deviation : List Float

namespace ChannelStats

def scaled (scale : Float) (d : Datum) : Outcome Float := do
  let x ← d.toFloat
  if scale == 0.0 then throw (.plain .divisionByZero)
  return x / scale

/-- The numbers listed under a key, divided by a scale. -/
def column (d : Datum) (key : String) (scale : Float) : Outcome (List Float) :=
  match d.find? key with
  | none => .error (.plain .key)
  | some v => do (← v.listed).mapM (scaled scale)

def ofDocument (path : String) (d : Datum) : Outcome ChannelStats := do
  match d with
  | .record _ => do
      let scale ← ((d.find? "max_pixel_value").getD (.float 1.0)).toFloat
      let mean ← column d "mean" scale
      let deviation ← column d "std" scale
      if mean.length ≠ 3 ∨ deviation.length ≠ 3 then
        throw (.channelStats path mean.length deviation.length)
      return ⟨mean, deviation⟩
  | _ => throw (.plain .attribute)

def load (path : Datum) : SessionM ChannelStats := do
  let text ← Session.onHost (Host.readText (← Session.pathOf path))
  match Json.parse? text.toList with
  | .error e => throw (.jsonSyntax e)
  | .ok d => Session.ofOutcome (ofDocument path.shown d)

end ChannelStats

end Perception
