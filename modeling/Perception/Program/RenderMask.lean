import Perception.Colour.Read
import Perception.CommandLine.Arguments
import Perception.Image.Save
import Perception.Image.Source
import Perception.Mask.Drawing

set_option autoImplicit false

/-! # Drawing a mask from the command line

Reads an image, a mask and the names of its classes, highlights every class on the image and writes
the result. The palette follows from the seed alone.
-/

namespace Perception.RenderMask

def readColour (s : String) : Except String Datum :=
  match Colour.read s with
  | .ok n => .ok (.int n)
  | .error e => .error e.report

def usualTransparency : Float := 0.5

def grammar : CommandLine.Grammar :=
  ⟨[CommandLine.helpSwitch,
    CommandLine.valueSwitch "--image" CommandLine.readText true .null,
    CommandLine.valueSwitch "--mask" CommandLine.readText true .null,
    CommandLine.valueSwitch "--classes" CommandLine.readText true .null,
    CommandLine.valueSwitch "--out" CommandLine.readText false .null,
    CommandLine.valueSwitch "--transparency" CommandLine.readFraction false
      (.float usualTransparency),
    CommandLine.valueSwitch "--background" readColour false .null,
    CommandLine.valueSwitch "--seed" CommandLine.readWhole false .null], none⟩

def parse (words : List String) : Except CommandLine.Stop Datum :=
  CommandLine.arguments grammar words

/-- The names of classes in a file, a line to a name, blank lines aside. -/
def readClasses (path : Path) : SessionM (List String) := do
  return Text.namesIn (← Session.onHost (Host.readText path))

/-- Where the result goes unless something else is asked for: beside the image, under a name made of
its own. -/
def outputBeside (image : Path) : Outcome Path :=
  match image.withName? (image.stem ++ "_mask.png") with
  | some p => .ok p
  | none => .error (.plain .value)

def outputOf (image : Path) (out : Datum) : SessionM Path :=
  if out.isTruthy then Session.pathOf out else Session.ofOutcome (outputBeside image)

/-- Draws a mask on a session's image with colours from its stream. -/
def draw (m : Mask) (im : Image) (transparency background : Datum) : SessionM Image := do
  let s ← get
  let drawn := m.draw im (.ofDatum transparency) (.ofDatum background) s.streams.arrays
  set { s with streams := { s.streams with arrays := drawn.generator } }
  Session.ofOutcome drawn.outcome
  return drawn.image

/-- Does what the arguments ask for; the exit code is zero. -/
def run (args : Datum) : SessionM Nat := do
  Session.setUpJournal .null
  let seed ← match args.get "seed" with
    | .null => Session.setting Settings.seed
    | d => pure d
  Session.seed seed
  let imagePath ← Session.pathOf (args.get "image")
  let out ← outputOf imagePath (args.get "out")
  let classes ← readClasses (← Session.pathOf (args.get "classes"))
  let text ← Session.onHost (Host.readText (← Session.pathOf (args.get "mask")))
  let mask ← Session.ofOutcome (Mask.ofJson classes text)
  let image ← Session.onHost (Image.load imagePath)
  let drawn ← draw mask (image.convert .rgba) (args.get "transparency") (args.get "background")
  Session.onHost (Host.makeDirectories out.parent)
  Session.onHost (drawn.save out)
  Session.print s!"Overlay written to: {out}"
  return 0

end Perception.RenderMask
