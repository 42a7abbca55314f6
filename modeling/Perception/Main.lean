import Perception.Program.Basic

set_option autoImplicit false

/-! # The command line

Starts a program by the name that comes first, in a session that holds the files the other words
mean, and does what comes of it: prints the lines, writes the files and leaves with the exit code.
-/

namespace Perception.Shell

/-- The variable of the surroundings that names the settings file. -/
def settingsVariable : String := "MODALKIT_CONFIG"

def readBytes? (path : String) : IO (Option Bytes) := do
  try
    return some (← IO.FS.readBinFile path).toList
  catch _ => return none

/-- Puts the files that can be read into a tree. -/
def gather (here : Location) (t : FileTree) : List String → IO FileTree
  | [] => return t
  | text :: rest => do
      let path := Path.ofString text
      match ← readBytes? text with
      | some bs =>
          let location := if path.isAbsolute then path.names else here ++ path.names
          gather here (t.plant location (.file (.ofBytes bs))) rest
      | none => gather here t rest

/-- A session that holds the files that texts mean. There is no web to ask. -/
def session (texts : List String) : IO Session := do
  let here := (Path.ofString (toString (← IO.currentDir))).names
  let settings ← IO.getEnv settingsVariable
  let home ← IO.getEnv "HOME"
  let tree ← gather here (FileTree.plant ⟨[]⟩ here .directory) (texts ++ settings.toList)
  let homes := home.toList.map fun h => ("", h)
  let host : Host := { Host.offline tree with here, homes, bar := .drawn }
  return { Session.start host with settingsVariable := settings }

/-- Writes a file, and the directories above it. -/
def writeFile (l : Location) (bs : Bytes) : IO Unit := do
  IO.FS.createDirAll ("/" ++ "/".intercalate l.dropLast)
  IO.FS.writeBinFile ("/" ++ "/".intercalate l) ⟨bs.toArray⟩

def carryOut (r : Program.Report) : IO UInt32 := do
  r.printed.forM IO.println
  r.complaints.forM IO.eprintln
  r.files.forM fun (l, bs) => writeFile l bs
  return r.exitCode.toUInt32

def programsText : String := "programs: " ++ ", ".intercalate (Program.all.map Program.name)

/-- Starts the program that the first word names. -/
def run (words : List String) : IO UInt32 := do
  match words, words.head?.bind Program.ofName? with
  | _ :: rest, some p => carryOut (p.start (← session (p.filesNamed rest)) rest)
  | _, _ =>
      IO.eprintln programsText
      return Program.refused.toUInt32

end Perception.Shell

def main (words : List String) : IO UInt32 := Perception.Shell.run words
