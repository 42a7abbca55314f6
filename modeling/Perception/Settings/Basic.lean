import Perception.Failure
import Perception.Files.Path

set_option autoImplicit false

/-! # Settings

Settings are a record of sections, each a record of values. A section that is missing or counts as
absent is empty, and each value has a default for where it is missing; but a section or a whole file
that holds something else has no values at all, and asking for one fails.
-/

namespace Perception

/-- Settings and the file they are from; the packaged ones are from none. -/
structure Settings where
  path : Option Path
  content : Datum

namespace Settings

/-- The settings that hold where no file is named. -/
def packaged : Datum :=
  Datum.object [
    ("environment", Datum.object [("random_seed", .int 42)]),
    ("logging", Datum.object [("level", "INFO")]),
    ("audio", Datum.object [
      ("factories", .list [
        "modalkit.modality.audio.librosa_factory.LibrosaAudioFactory",
        "modalkit.modality.audio.soundfile_factory.SoundFileAudioFactory"]),
      ("target_sample_rate", .null)]),
    ("repository", Datum.object [
      ("base_uri", "~/.modalkit/models"), ("cache_dir", "~/.modalkit/cache")]),
    ("data", Datum.object [("batch_size", .int 32)]),
    ("visualization", Datum.object [("transparency", .float 0.5)])]

/-- What asking something that is no record for a value leads to. -/
def noRecord {α : Type} : Outcome α := .error (.plain .attribute)

/-- The value under a key of a record, or a default. -/
def entry (d : Datum) (key : String) (default : Datum) : Outcome Datum :=
  match d with
  | .record es => .ok ((Datum.lookup es key).getD default)
  | _ => noRecord

/-- A section by name: empty where it counts as absent. -/
def part (s : Settings) (name : String) : Outcome Datum := do
  let top := if s.content.isTruthy then s.content else .record []
  let d ← entry top name .null
  return if d.isTruthy then d else .record []

def value (s : Settings) (name key : String) (default : Datum) : Outcome Datum := do
  entry (← s.part name) key default

def seed (s : Settings) : Outcome Datum := s.value "environment" "random_seed" (.int 42)

/-- How grave an entry must be to be journalled. -/
def logLevel (s : Settings) : Outcome Datum := s.value "logging" "level" "INFO"

def audioBackends (s : Settings) : Outcome Datum := s.value "audio" "factories" .null

def audioRate (s : Settings) : Outcome Datum := s.value "audio" "target_sample_rate" .null

def repositoryBase (s : Settings) : Outcome Datum :=
  s.value "repository" "base_uri" "~/.modalkit/models"

def repositoryCache (s : Settings) : Outcome Datum :=
  s.value "repository" "cache_dir" "~/.modalkit/cache"

def batchSize (s : Settings) : Outcome Datum := s.value "data" "batch_size" (.int 32)

def maskTransparency (s : Settings) : Outcome Datum :=
  s.value "visualization" "transparency" (.float 0.5)

/-- A copy of a section: there is one of records, lists and sets. -/
def copyOf (d : Datum) : Outcome Datum :=
  match d with
  | .record _ | .list _ | .foreign .set _ => .ok d
  | _ => noRecord

def audio (s : Settings) : Outcome Datum := do copyOf (← s.part "audio")

/-- All that the settings say about the repository, its place and its cache filled in. -/
def repository (s : Settings) : Outcome Datum := do
  let d ← copyOf (← s.part "repository")
  let base ← s.repositoryBase
  let cache ← s.repositoryCache
  match d with
  | .record es => return .record (Datum.insert (Datum.insert es "base_uri" base) "cache_dir" cache)
  | _ => noRecord

end Settings

end Perception
