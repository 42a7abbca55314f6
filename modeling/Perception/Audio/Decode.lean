import Perception.Audio.Backend
import Perception.Web.Host

set_option autoImplicit false

/-! # Decoding audio

What a backend makes of a sound file, be it on this machine, behind an address or in memory. The
libraries of the machine decode it (`Toolkit`). The backend makes one channel of the samples, brings
them to its own rate if it resamples, and says which failures mean that the content is unreadable.
-/

namespace Perception.Audio

/-- A sound file of one channel as it is, others as the clip of their mean. -/
def Wave.single (w : Wave) : Array Float32 :=
  if w.channels = 1 then w.frames.flatten.toArray else w.mixed

namespace Backend

def resampled (k : Toolkit) (target : Datum) (c : Clip) : Outcome Clip := do
  if !target.isTruthy || Datum.sameKey target (.float c.rate) then return c
  let samples ← k.resample c.samples c.rate target
  return ⟨samples, ← target.toFloat, c.channels⟩

def converted (k : Toolkit) (target : Datum) (w : Wave) : Outcome Clip :=
  if w.frames.any fun f => f.any fun x => !x.isFinite then .error (.plain .unfitSignal)
  else resampled k target ⟨w.single, Float.ofNat w.rate, w.channels⟩

/-- The clip in bytes. One backend reports what its library refuses and lets other trouble through,
the other one reports all trouble with decoding. -/
def decode (k : Toolkit) (b : Backend) (origin : Option Path) (bs : Bytes) : Outcome Clip :=
  match b with
  | plain =>
      match k.plain origin bs with
      | .ok w => .ok ⟨w.mixed, Float.ofNat w.rate, w.channels⟩
      | .error (.refused text) => .error (.undecodableAudio (originText origin) text)
      | .error (.other f) => .error f
  | resampling target =>
      match k.resampling origin bs with
      | .ok w => converted k target w
      | .error t => .error (.undecodableAudio (originText origin) t.text)
  | other name => k.foreign name origin bs

def lift {α : Type} : Outcome α → HostM α
  | .ok a => pure a
  | .error e => throw e

/-- The clip in bytes, by the libraries of the machine. -/
def decoded (b : Backend) (origin : Option Path) (bs : Bytes) : HostM Clip := do
  lift (decode (← get).sound b origin bs)

def fromBytes (b : Backend) (bs : Bytes) : HostM Clip := b.decoded none bs

def fromFile (b : Backend) (p : Path) : HostM Clip := do
  if ← Host.isFile p then b.decoded (some p) (Host.bytesOf (← Host.read p))
  else throw (.audioMissing p.toString)

/-- The clip behind an address, or in the file that a path leads to. -/
def fromUrl (b : Backend) (url : String) : HostM Clip := do
  if ← lift (isAbsoluteUri url) then
    b.fromBytes (Host.bytesOf (← Host.fetch url Host.patience))
  else b.fromFile (Path.ofString url)

end Backend

end Perception.Audio
