import Perception.Datum.Listed
import Perception.Datum.Shown
import Perception.Mask.Drawing
import Perception.Session

set_option autoImplicit false

/-! # Plots of masks

A plot shows an image with a mask highlighted on it, and a legend with the colour of every class
that occurs. It is drawn on a copy of the image. Where image and mask differ in size, the mask is
laid at the upper left corner and cut off at the edges.
-/

namespace Perception

structure Plot where
  canvas : Image
  title : String
  /-- Width and height of the whole figure. -/
  extent : Float × Float
  /-- The names of the classes that occur, each with its colour. -/
  legend : List (String × Rgba)
  /-- Where the legend stands. -/
  place : String

namespace Plot

def usualExtent : Datum := .list [.int 6, .int 5]

/-- The layer of a mask laid on an image in full colour. -/
def canvasOf (im : Image) (layer : Grid Rgba) : Image :=
  let base := im.convert .rgba
  base.redrawn (Grid.ofFn base.width base.height fun x y =>
    let d := (base.pixels.get? x y).getD Rgba.clear
    match layer.get? x y with
    | some s => Rgba.composite s d
    | none => d)

def present (m : Mask) : List Nat :=
  (List.range m.classes.length).filter fun c => m.cells.cells.contains c

/-- The entries of the legend: the colours are solid there. -/
def legendOf (m : Mask) (colours : Array Rgba) : List (String × Rgba) :=
  (present m).map fun c =>
    (m.classes.getD c "", { colours.getD c Rgba.clear with a := 255 })

def extentOf (d : Datum) : Outcome (Float × Float) := do
  match ← (← d.listed).mapM Datum.toFloat with
  | [w, h] =>
      if 0.0 < w && 0.0 < h && w.isFinite && h.isFinite then return (w, h)
      else throw (.plain .value)
  | _ => throw (.plain .value)

def titleOf (d : Datum) : String := if d.isTruthy then d.shown else ""

def argumentNames : List String := ["transparency", "title", "figsize", "legend_outside"]

/-- The plot of a mask on an image, as arguments by name ask for it. -/
def make (im : Image) (m : Mask) (args : Datum) : SessionM Plot := do
  let isKnown : Datum → Bool
    | .text k => argumentNames.contains k
    | _ => false
  if args.entries.any fun e => !isKnown e.1 then throw (.plain .type)
  let transparency ← match args.get "transparency" with
    | .null => Session.setting Settings.maskTransparency
    | d => pure d
  let s ← get
  let (colours, g) := m.palette (.ofDatum transparency) s.streams.arrays
  set { s with streams := { s.streams with arrays := g } }
  let colours ← Session.ofOutcome colours
  let extent ← Session.ofOutcome (extentOf ((args.find? "figsize").getD usualExtent))
  let outside := ((args.find? "legend_outside").getD (.bool true)).isTruthy
  return {
    canvas := canvasOf im (m.layer colours)
    title := titleOf (args.get "title")
    extent := extent
    legend := legendOf m colours
    place := if outside then "center left" else "best" }

end Plot

end Perception
