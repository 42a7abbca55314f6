import Perception.Audio.Clip
import Perception.Audio.Wave
import Perception.Files.Path

set_option autoImplicit false

/-! # What decodes audio

Backends leave it to libraries to decode sound files and to bring clips to another rate. A `Toolkit`
is what the libraries of a machine do, including how they fail. `Toolkit.waves` is a small one: it
understands sound files of uncompressed samples, and finds the values in between along straight
lines.
-/

namespace Perception.Audio

/-- What goes wrong while sound is decoded: a library refuses it, with a text, or something else
does. -/
inductive Trouble
  | refused (text : String)
  | other (f : Failure)

def Trouble.text : Trouble → String
  | refused text => text
  | other f => f.report

/-- What a library makes of bytes. They are from a file or, where there is no path, from none. -/
abbrev Decoder := Option Path → Bytes → Except Trouble Wave

structure Toolkit where
  /-- What the library of the backend that keeps rates decodes. -/
  plain : Decoder
  /-- What the library of the backend that resamples decodes. -/
  resampling : Decoder
  /-- Samples that follow each other at one rate, brought to another, which is a loose value. -/
  resample : Array Float32 → Float → Datum → Outcome (Array Float32)
  /-- The clips of backends that go by other names. -/
  foreign : String → Option Path → Bytes → Outcome Clip

/-- What bytes are called: the path of their file, or a stream. -/
def originText : Option Path → String
  | some p => p.toString
  | none => "stream"

def Wave.mixed (w : Wave) : Array Float32 := (w.frames.map (meanOf sumInRow)).toArray

/-! ## Uncompressed samples -/

/-- Does a file have the ending of samples without a head? The rate of such samples is unknown. -/
def isHeadless (p : Path) : Bool :=
  (Path.suffixOf (p.name.toList.dropWhile (· = '.'))).map Char.toUpper = ".RAW".toList

def Decoder.waves : Decoder := fun origin bs =>
  if origin.any isHeadless then .error (.other (.plain .type))
  else match Wave.read? bs with
    | some w => .ok w
    | none => .error (.refused "Format not recognised.")

def resampledSize (size : Nat) (rate target : Float) : Outcome Nat :=
  match Number.truncate? (Float.ofNat size * (target / rate)).ceil with
  | some n => if target ≤ 0.0 then .error (.plain .value) else .ok n.toNat
  | none =>
      .error (.plain (if (Float.ofNat size * (target / rate)).isNaN then .value else .overflow))

/-- Samples brought to a number of samples, with the values in between along straight lines. -/
def stretched (samples : Array Float32) (size : Nat) : Array Float32 :=
  ((List.range size).map fun i =>
    let place := Float.ofNat i * Float.ofNat samples.size / Float.ofNat size
    let low := place.toUInt64.toNat
    let share := (place - Float.ofNat low).toFloat32
    let a := samples.getD low 0.0
    a + share * (samples.getD (low + 1) a - a)).toArray

def Toolkit.waves : Toolkit where
  plain := .waves
  resampling := .waves
  resample samples rate target := do
    let wanted ← target.toFloat
    if let .text _ := target then throw (.plain .type)
    return stretched samples (← resampledSize samples.size rate wanted)
  foreign _ origin bs :=
    match Decoder.waves origin bs with
    | .ok w => .ok ⟨w.mixed, Float.ofNat w.rate, w.channels⟩
    | .error t => .error (.undecodableAudio (originText origin) t.text)

end Perception.Audio
