import Perception.Audio.Decode
import Perception.Audio.Selection
import Perception.CommandLine.Arguments

set_option autoImplicit false

/-! # Properties of audio files from the command line

Decodes each of some files or addresses and prints a line about it. Those that cannot be read are
complained about, and make the exit code one.
-/

namespace Perception.AudioInfo

def grammar : CommandLine.Grammar :=
  ⟨[CommandLine.helpSwitch,
    CommandLine.valueSwitch "--log-level" CommandLine.readText false .null], some "inputs"⟩

def parse (words : List String) : Except CommandLine.Stop Datum :=
  CommandLine.arguments grammar words

def line (source : String) (c : Audio.Clip) : String :=
  s!"{source}: {Number.general c.rate} Hz, {Number.intText c.channels} channel(s), "
    ++ s!"{Number.fixed 3 c.duration} s ({c.size} samples)"

def report (b : Audio.Backend) (source : String) : SessionM Bool := do
  let clip : Outcome Audio.Clip ← tryCatch
    (Except.ok <$> Session.onHost (b.fromUrl source)) fun e =>
      if e.kind.isIO then pure (.error e) else throw e
  match clip with
  | .ok c => do
      Session.print (line source c)
      return true
  | .error e => do
      Session.complain s!"{source}: error: {e.report}"
      return false

/-- Does what the arguments ask for, and gives the exit code. -/
def run (args : Datum) : SessionM Nat := do
  Session.setUpJournal (args.get "log_level")
  let b ← Session.audioBackend
  let readable ← ((args.get "inputs").items.filterMap Datum.text?).mapM (report b)
  return if readable.all id then 0 else 1

end Perception.AudioInfo
