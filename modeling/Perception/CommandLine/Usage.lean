import Perception.CommandLine.Words

set_option autoImplicit false

/-! # Usage

The line that says how a command is to be called: its name, its switches, those that may be left out
in brackets, and its plain words (`Grammar.usage`).
-/

namespace Perception.CommandLine

/-- A switch in a usage line: its first name, and its key in upper case where a value follows. -/
def Switch.usage (s : Switch) : String :=
  let name := s.names.headD ""
  let shown := match s.effect with
    | .help => name
    | .store key _ => s!"{name} {key.toUpper}"
  if s.required then shown else s!"[{shown}]"

/-- The plain words in a usage line; there is at least one of them. -/
def plainUsage (key : String) : String := s!"{key} [{key} ...]"

def Grammar.usage (g : Grammar) (command : String) : String :=
  " ".intercalate
    ("usage:" :: command :: (g.switches.map Switch.usage ++ g.plainKey.toList.map plainUsage))

end Perception.CommandLine
