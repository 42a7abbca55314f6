import Perception.Classification.Basic
import Perception.Dataset.Transform
import Perception.Model.Architecture

set_option autoImplicit false

/-! # Classifying images

A classifier prepares an image, asks a model for its outputs, makes probabilities of these and puts
labels to them. The labels are those that the artifact lists, or numbers if it lists none; they are
read once and kept for as long as the number of outputs stays the same (`Classifier.labelsFor`).
-/

namespace Perception

/-- Probabilities in proportion to the exponentials of outputs. -/
def softmax (xs : List Float32) : List Float32 :=
  let most := xs.foldl (fun m x => if m < x || x.isNaN then x else m) (-(1.0 / 0.0))
  let es := xs.map fun x => (x - most).exp
  let total := es.foldl (· + ·) 0.0
  es.map (· / total)

def Reals.channelMeans (a : Reals) : List Float32 :=
  match a.shape with
  | [channels, h, w] =>
      let plane := h * w
      (List.range channels).map fun c =>
        let sum := (a.values.extract (c * plane) ((c + 1) * plane)).foldl
          (fun s x => s + x.toFloat) 0.0
        (sum / Float.ofNat plane).toFloat32
  | _ => []

/-- A model whose outputs are linear in the means of the channels. -/
structure LinearHead where
  weight : List (List Float32)
  bias : List Float32

/-- The outputs of a linear model. Without weights they are its offsets. -/
def LinearHead.outputs (m : LinearHead) (a : Reals) : List Float32 :=
  let means := a.channelMeans
  m.bias.zipIdx.map fun (b, j) =>
    let row := m.weight.getD j (means.map fun _ => 0.0)
    (List.zipWith (· * ·) row means).foldl (· + ·) 0.0 + b

/-- A loader of an image classifier, with the labels read last. -/
structure Classifier where
  loader : Loader
  labels : Option (List String)

namespace Classifier

def ofLoader (l : Loader) : Classifier := ⟨l, none⟩

def pipeline : Pipeline :=
  .resize (.list [.int 224, .int 224])
    :: Pipeline.normalizing Pipeline.usualMean Pipeline.usualDeviation

/-- An image prepared for the model. Nothing of this is left to chance, so any generator will do. -/
def prepare (im : Image) : Outcome Reals :=
  (pipeline.apply (im.convert .rgb) (Random.Generator.ofSeed 0)).1

def labelFile : String := "synset.txt"

/-- The labels that the artifact lists for a number of outputs: a line to a label, blank lines
aside. Numbers are the labels where there is no such list. -/
def readLabels (c : Classifier) (outputs : Int) : HostM (List String) := do
  let l := c.loader
  let path? ← tryCatch (some <$> l.repository.openFile l.artifact labelFile) fun e =>
    if e.kind = .notFound then pure none else throw e
  match path? with
  | none => return (List.range outputs.toNat).map toString
  | some path => do
      let names := Text.namesIn (← Host.readText path)
      if names.length = outputs then return names
      else throw (.synsetCount path.toString names.length outputs)

/-- The labels for a number of outputs: those read last if they are as many, else read again. -/
def labelsFor (c : Classifier) (outputs : Nat) : HostM (List String) :=
  match c.labels with
  | some names => if names.length = outputs then pure names else c.readLabels outputs
  | none => c.readLabels outputs

/-- Refuses to look for fewer than one of the best classes. -/
def checkRanks (ranks : Datum) : Outcome Unit :=
  let check (low : Bool) : Outcome Unit := if low then .error (.rankCount ranks.shown) else .ok ()
  match ranks with
  | .bool b => check !b
  | .int k => check (k < 1)
  | .float x => check (x < 1.0)
  | _ => .error (.plain .type)

def rank (labels : List String) (probabilities : List Float32) (ranks : Datum) :
    Outcome (List Scored) := do
  let c ← Classification.make (labels.map .text) (probabilities.map Float32.toFloat)
  c.topOf ranks

/-- The best classes of an image by a model, as many as asked for, and the classifier with the
labels it read. -/
def predict (c : Classifier) (model : Reals → List Float32) (im : Image) (ranks : Datum) :
    HostM (Outcome (List Scored) × Classifier) := do
  match checkRanks ranks >>= fun _ => prepare im with
  | .error e => return (.error e, c)
  | .ok batch => do
      let probabilities := softmax (model batch)
      let labels : Outcome (List String) ← tryCatch
        (Except.ok <$> c.labelsFor probabilities.length) fun e => pure (.error e)
      match labels with
      | .error e => return (.error e, c)
      | .ok labels => return (rank labels probabilities ranks, { c with labels := some labels })

end Classifier

end Perception
