import Perception.Number.Power
import Perception.Text.Utf8

set_option autoImplicit false

/-! # Sound files

A sound file is a head and a list of chunks, each with a mark of four letters and a length. One
chunk says how samples are written, a later one holds them, frame by frame; other chunks are passed
over (`Wave.read?`).
-/

namespace Perception.Audio

inductive SampleForm
  /-- One byte, with silence in the middle of its range. -/
  | byte
  /-- A whole number of so many bytes, with sign. -/
  | whole (bytes : Nat)
  | single
  | double
  deriving DecidableEq, Repr

/-- What a sound file holds: frames of one sample for each channel, and how many of them there are
in a second. -/
structure Wave where
  rate : Nat
  channels : Nat
  frames : List (List Float32)

structure WaveFormat where
  form : SampleForm
  channels : Nat
  rate : Nat
  deriving DecidableEq, Repr

namespace SampleForm

def width : SampleForm → Nat
  | byte => 1
  | whole n => n
  | single => 4
  | double => 8

/-- The form that the tag of a file and the number of bits of a sample stand for. -/
def ofTag? (tag bits : Nat) : Option SampleForm :=
  match tag, bits with
  | 1, 8 => some byte
  | 1, 16 => some (whole 2)
  | 1, 24 => some (whole 3)
  | 1, 32 => some (whole 4)
  | 3, 32 => some single
  | 3, 64 => some double
  | _, _ => none

/-- A sample as a fraction of full loudness. -/
def sample (form : SampleForm) (bs : Bytes) : Float32 :=
  let n := bs.toNatLE
  match form with
  | byte => (Float.ofInt ((n : Int) - 128) / 128.0).toFloat32
  | whole k =>
      (Float.ofInt (Int.bmod n (Number.powerOfTwo (8 * k)))
        / Float.ofNat (Number.powerOfTwo (8 * k - 1))).toFloat32
  | single => Float32.ofBits (UInt32.ofNat n)
  | double => (Float.ofBits (UInt64.ofNat n)).toFloat32

end SampleForm

namespace Wave

/-- The tag of files whose true tag is in an appendix. -/
def extensibleTag : Nat := 0xFFFE

/-- The number in `size` bytes at a place. -/
def numberAt (bs : Bytes) (place size : Nat) : Nat := Bytes.toNatLE ((bs.drop place).take size)

def maxChannels : Nat := 1024

def maxRate : Nat := 0x7FFFFFFF

def format? (body : Bytes) : Option WaveFormat :=
  if body.length < 16 then none
  else
    let tag := numberAt body 0 2
    let tag := if tag = extensibleTag ∧ 26 ≤ body.length then numberAt body 24 2 else tag
    let channels := numberAt body 2 2
    let rate := numberAt body 4 4
    if channels = 0 ∨ maxChannels < channels ∨ rate = 0 ∨ maxRate < rate then none
    else (SampleForm.ofTag? tag (numberAt body 14 2)).map fun form => ⟨form, channels, rate⟩

def samples (form : SampleForm) : Nat → Bytes → List Float32
  | 0, _ => []
  | n + 1, bs => form.sample (bs.take form.width) :: samples form n (bs.drop form.width)

def framesOf (channels : Nat) : Nat → List Float32 → List (List Float32)
  | 0, _ => []
  | n + 1, xs => xs.take channels :: framesOf channels n (xs.drop channels)

/-- The content of a chunk of samples, an unfinished frame left out. A chunk without a length takes
all that follows. -/
def ofData (f : WaveFormat) (length : Nat) (rest : Bytes) : Wave :=
  let body := if length = 0 then rest else rest.take length
  let frame := f.form.width * f.channels
  let count := body.length / frame
  let xs := samples f.form (count * f.channels) body
  ⟨f.rate, f.channels, framesOf f.channels count xs⟩

/-- Looks through chunks for the format and the samples. -/
def chunks? (format : Option WaveFormat) : Nat → Bytes → Option Wave
  | 0, _ => none
  | fuel + 1, bs =>
      if bs.length < 8 then none
      else
        let mark := bs.take 4
        let length := numberAt bs 4 4
        let rest := bs.drop 8
        if mark = Bytes.ofString "data" then format.map fun f => ofData f length rest
        else
          let next := rest.drop (length + length % 2)
          if mark = Bytes.ofString "fmt " then
            match format? (rest.take length) with
            | some f => chunks? (some f) fuel next
            | none => none
          else chunks? format fuel next

/-- The content of a sound file, `none` for bytes that are none. -/
def read? (bs : Bytes) : Option Wave :=
  if bs.take 4 = Bytes.ofString "RIFF" ∧ (bs.drop 8).take 4 = Bytes.ofString "WAVE" then
    chunks? none bs.length (bs.drop 12)
  else none

end Wave

end Perception.Audio
