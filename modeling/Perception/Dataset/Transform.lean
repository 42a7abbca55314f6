import Perception.Datum.Shown
import Perception.Image.Resample
import Perception.NdArray.Reals
import Perception.Random.Streams

set_option autoImplicit false

/-! # Preparing pictures

A pipeline of stages turns a picture into an array for a model: it may change the size, turn, mirror
and recolour the picture, then makes fractions of it and normalizes them. Which stages there are
follows from arguments (`Pipeline.ofArguments`); a pipeline can be described (`Pipeline.text`) and
applied (`Pipeline.apply`), drawing on randomness where a picture is mirrored by chance. Of turning
and recolouring only the description is given here; they leave the picture as it is.
-/

namespace Perception

inductive Stage
  | resize (size : Datum)
  | rotate (least most : Float)
  | mirror
  | recolour
  | toFractions
  | normalize (mean deviation : Datum)

abbrev Pipeline := List Stage

namespace Stage

def name : Stage → String
  | resize _ => "Resize"
  | rotate .. => "RandomRotation"
  | mirror => "RandomHorizontalFlip"
  | recolour => "ColorJitter"
  | toFractions => "ToTensor"
  | normalize .. => "Normalize"

/-- A value as a description shows it: a list between round brackets. -/
def argumentText : Datum → String
  | .list [x] => "(" ++ x.quotedForm ++ ",)"
  | .list xs => "(" ++ ", ".intercalate (xs.map Datum.quotedForm) ++ ")"
  | d => d.shown

def text (s : Stage) : String :=
  s.name ++ match s with
    | resize size =>
        s!"(size={argumentText size}, interpolation=bilinear, max_size=None, antialias=True)"
    | rotate least most =>
        s!"(degrees=[{Number.text least}, {Number.text most}], "
          ++ "interpolation=nearest, expand=False, fill=0)"
    | mirror => "(p=0.5)"
    | recolour => "(brightness=(0.8, 1.2), contrast=(0.8, 1.2), saturation=(0.9, 1.1), hue=None)"
    | toFractions => "()"
    | normalize mean deviation => s!"(mean={argumentText mean}, std={argumentText deviation})"

/-- A change of size, by one extent or two. -/
def ofSize (size : Datum) : Outcome Stage :=
  let few (n : Nat) : Outcome Stage :=
    if n = 1 ∨ n = 2 then .ok (resize size) else .error (.plain .value)
  match size with
  | .int _ | .bool _ => .ok (resize size)
  | .list xs => few xs.length
  | .text s => few s.length
  | _ => .error (.plain .type)

def negated (d : Datum) : Outcome Float :=
  match d with
  | .int i => (Datum.int (-i)).toFloat
  | .bool b => (Datum.int (if b then -1 else 0)).toFloat
  | .float x => .ok (-x)
  | _ => .error (.plain .type)

/-- A turn by up to so many degrees either way. -/
def ofDegrees (d : Datum) : Outcome Stage := do
  let least ← negated d
  let most ← d.toFloat
  return rotate least most

/-! ## Changes of size -/

/-- A product of an extent with a whole number, divided by another and cut to a whole number. -/
def scaled (d : Datum) (long short : Nat) : Outcome Int := do
  if short = 0 then throw (.plain .divisionByZero)
  match d with
  | .int i => (Datum.float (Number.ofInt (i * long) / Float.ofNat short)).toInt
  | .bool b => (Datum.float (Float.ofNat (if b then long else 0) / Float.ofNat short)).toInt
  | .float x => (Datum.float (x * Float.ofNat long / Float.ofNat short)).toInt
  | _ => throw (.plain .type)

/-- The width and height that a picture of some size gets: a single extent is that of its shorter
side. -/
def target (size : Datum) (width height : Nat) : Outcome (Datum × Datum) :=
  let shorter (d : Datum) : Outcome (Datum × Datum) :=
    if width ≤ height then do
      let n ← scaled d height width
      return (d, .int n)
    else do
      let n ← scaled d width height
      return (.int n, d)
  match size with
  | .list [d] => shorter d
  | .list [h, w] => .ok (w, h)
  | .list _ => .error (.plain .value)
  | .text _ => .error (.plain .type)
  | d => shorter d

/-- A whole number of 32 bits, as an extent must be. -/
def extent (d : Datum) : Outcome Int :=
  match d with
  | .int i => if -0x80000000 ≤ i ∧ i < 0x80000000 then .ok i else .error (.plain .overflow)
  | .bool b => .ok (if b then 1 else 0)
  | _ => .error (.plain .type)

def changeSize (size : Datum) (im : Image) : Outcome Image := do
  let (w, h) ← target size im.width im.height
  if Datum.sameKey w (.int im.width) && Datum.sameKey h (.int im.height) then return im
  let w ← extent w
  let h ← extent h
  if w ≤ 0 ∨ h ≤ 0 then throw (.plain .value)
  im.resize .linear w.toNat h.toNat

def mirrored (im : Image) : Image :=
  im.redrawn (Grid.ofFn im.width im.height fun x y =>
    (im.pixels.get? (im.width - 1 - x) y).getD Rgba.clear)

/-- What a pipeline works on: a picture, and later an array. -/
inductive Stuff
  | picture (im : Image)
  | array (a : Reals)

/-- A stage applied. A picture is mirrored in half of all cases. -/
def apply (s : Stage) (x : Stuff) (g : Random.Generator) : Outcome Stuff × Random.Generator :=
  match s, x with
  | resize size, .picture im => ((changeSize size im).map .picture, g)
  | mirror, .picture im =>
      let (draw, g) := g.fraction
      (.ok (.picture (if draw < 0.5 then mirrored im else im)), g)
  | toFractions, .picture im => (.ok (.array (Reals.ofImage im)), g)
  | normalize mean deviation, .array a => ((a.normalize mean deviation).map .array, g)
  | _, x => (.ok x, g)

end Stage

namespace Pipeline

/-- The means of the three channels over a large collection of pictures. -/
def usualMean : Datum := .list [.float 0.485, .float 0.456, .float 0.406]

def usualDeviation : Datum := .list [.float 0.229, .float 0.224, .float 0.225]

def names : List String :=
  ["mean", "std", "size", "aug_flip", "aug_jitter", "aug_rotation", "rotation_degrees"]

/-- The pipeline that normalizes by some means and deviations and does nothing else. -/
def normalizing (mean deviation : Datum) : Pipeline :=
  [.toFractions, .normalize mean deviation]

def ofArguments (args : Datum) : Outcome Pipeline := do
  let known : Datum → Bool
    | .text k => names.contains k
    | _ => false
  if args.entries.any fun (k, _) => !known k then throw (.plain .type)
  let asked (key : String) : Bool := (args.get key).isTruthy
  let sized ← match args.get "size" with
    | .null => pure []
    | d => do pure [← Stage.ofSize d]
  let turned ←
    if asked "aug_rotation" then do
      pure [← Stage.ofDegrees ((args.find? "rotation_degrees").getD (.float 10.0))]
    else pure []
  return sized ++ turned ++ (if asked "aug_flip" then [.mirror] else [])
    ++ (if asked "aug_jitter" then [.recolour] else [])
    ++ normalizing ((args.find? "mean").getD usualMean) ((args.find? "std").getD usualDeviation)

/-- A pipeline described, a line to a stage. -/
def text (p : Pipeline) : String :=
  "Compose(" ++ String.join (p.map fun s => "\n    " ++ s.text) ++ "\n)"

def run : Pipeline → Stage.Stuff → Random.Generator → Outcome Stage.Stuff × Random.Generator
  | [], x, g => (.ok x, g)
  | s :: rest, x, g =>
      match s.apply x g with
      | (.ok x, g) => run rest x g
      | (.error e, g) => (.error e, g)

def apply (p : Pipeline) (im : Image) (g : Random.Generator) : Outcome Reals × Random.Generator :=
  match run p (.picture im) g with
  | (.ok (.array a), g) => (.ok a, g)
  | (.ok (.picture im), g) => (.ok (Reals.ofImage im), g)
  | (.error e, g) => (.error e, g)

end Pipeline

end Perception
