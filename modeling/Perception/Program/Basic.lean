import Perception.CommandLine.Usage
import Perception.Image.Raster
import Perception.Json.Printer
import Perception.Json.Reader
import Perception.Program.AudioInfo
import Perception.Program.RenderMask

set_option autoImplicit false

/-! # Programs

The programs that can be started by name, and what comes of a run (`Program.start`): lines, files
and an exit code. A picture is kept in a file as its raster in JSON.
-/

namespace Perception

/-- What bytes hold: a picture if they are the JSON of a raster. -/
def Content.ofBytes (bs : Bytes) : Content :=
  match bs.toString?.map fun s => Json.read? s.toList with
  | some (.ok d) => ((Image.ofRaster? d).map picture).getD (bytes bs)
  | _ => bytes bs

def Content.kept : Content → Bytes
  | .picture im => Bytes.ofString (Json.compact im.toRaster)
  | c => Host.bytesOf c

/-- The files of the second tree that the first lacks or keeps with other bytes. -/
def FileTree.newFiles (before after : FileTree) : List (Location × Bytes) :=
  after.entries.filterMap fun (l, e) =>
    match e, before.get? l with
    | .file c, some (.file old) => if c.kept = old.kept then none else some (l, c.kept)
    | .file c, _ => some (l, c.kept)
    | .directory, _ => none

inductive Program
  | renderMask
  | audioInfo
  deriving DecidableEq, Repr

namespace Program

def all : List Program := [renderMask, audioInfo]

def name : Program → String
  | renderMask => "render_mask"
  | audioInfo => "audio_info"

def ofName? (s : String) : Option Program := all.find? fun p => p.name = s

def grammar : Program → CommandLine.Grammar
  | renderMask => RenderMask.grammar
  | audioInfo => AudioInfo.grammar

def run : Program → Datum → SessionM Nat
  | renderMask => RenderMask.run
  | audioInfo => AudioInfo.run

/-- The files that the arguments may mean. -/
def filesIn (args : Datum) : List String :=
  args.entries.flatMap fun e => (e.2 :: e.2.items).filterMap Datum.text?

def filesNamed (p : Program) (words : List String) : List String :=
  match CommandLine.arguments p.grammar words with
  | .ok args => filesIn args
  | .error _ => []

structure Report where
  printed : List String
  complaints : List String
  files : List (Location × Bytes)
  exitCode : Nat

def failed : Nat := 1

def refused : Nat := 2

/-- What comes of a command line that is not acted on. -/
def reportStop (p : Program) (s : CommandLine.Stop) : Report :=
  let usage := p.grammar.usage p.name
  match s.message with
  | none => ⟨[usage], [], [], 0⟩
  | some text => ⟨[], [usage, s!"{p.name}: {text}"], [], refused⟩

def start (p : Program) (s : Session) (words : List String) : Report :=
  match CommandLine.arguments p.grammar words with
  | .error stop => p.reportStop stop
  | .ok args =>
      let (outcome, t) := (p.run args).run s
      let files := s.host.tree.newFiles t.host.tree
      match outcome with
      | .ok code => ⟨t.console.printed, t.console.complaints, files, code⟩
      | .error e =>
          ⟨t.console.printed, t.console.complaints ++ [s!"{p.name}: {e.report}"], files, failed⟩

/-- A program is found under its name. -/
theorem ofName?_name (p : Program) : ofName? p.name = some p := by
  cases p <;> decide

end Program

end Perception
