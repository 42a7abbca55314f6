import Perception.Failure

set_option autoImplicit false

/-! # Audio backends

What decodes audio: one backend keeps the rate of a clip, the other resamples clips to a rate of its
own. Further ones may be on offer under names of their own; a name may also offer something that
cannot be set up (`Offer.failing`).
-/

namespace Perception.Audio

inductive Backend
  | plain
  | resampling (rate : Datum)
  | other (name : String)

def Backend.name : Backend → String
  | .plain => "SoundFileAudioFactory"
  | .resampling _ => "LibrosaAudioFactory"
  | .other name => name

inductive Offer
  | plain
  | resampling
  | other (name : String)
  | failing (kind : FailureKind)

/-- The names that lead to backends by themselves, in the order in which they are tried. -/
def standardNames : List String :=
  ["modalkit.modality.audio.librosa_factory.LibrosaAudioFactory",
    "modalkit.modality.audio.soundfile_factory.SoundFileAudioFactory"]

def standardOffers : List (String × Offer) := standardNames.zip [.resampling, .plain]

/-- Does a failure while a backend is set up only mean that it cannot be used here? -/
def meansUnavailable (kind : FailureKind) : Bool :=
  kind.isIO || kind.isValue || kind = .type || kind = .attribute || kind = .absentModule

end Perception.Audio
