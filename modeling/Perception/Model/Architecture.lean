import Perception.Datum.Shown
import Perception.Model.Loader

set_option autoImplicit false

/-! # Architectures

The kinds of image classifier there are, how large each is, and which artifact holds the values of
its parameters. The last layer alone depends on the number of classes.
-/

namespace Perception

inductive Architecture
  | squeezenet
  | resnet
  | mobileNet
  | alexNet
  deriving DecidableEq, Repr

/-- How large a model is: how many parameters it has, how many arrays hold its state, and the shape
of the last of these. -/
structure ModelSize where
  parameters : Nat
  entries : Nat
  last : List Nat
  deriving DecidableEq, Repr

namespace Architecture

def all : List Architecture := [squeezenet, resnet, mobileNet, alexNet]

def title : Architecture → String
  | squeezenet => "Squeezenet"
  | resnet => "Resnet"
  | mobileNet => "MobileNetV2"
  | alexNet => "AlexNet"

def id : Architecture → String
  | squeezenet => "squeezenet"
  | resnet => "resnet"
  | mobileNet => "mobilenet_v2"
  | alexNet => "alexnet"

def ids : List String := (all.map id).mergeSort fun a b => !decide (b < a)

/-- The artifact with the values of the parameters. -/
def artifact (a : Architecture) : Artifact := ⟨"cv.classification", a.id, "0.0.1"⟩

/-- How many arrays hold the state. -/
def entryCount : Architecture → Nat
  | squeezenet => 52
  | resnet => 320
  | mobileNet => 314
  | alexNet => 16

/-- How many parameters all layers but the last have. -/
def innerParameters : Architecture → Nat
  | squeezenet => 722496
  | resnet => 23508032
  | mobileNet => 2223872
  | alexNet => 57003840

def lastInputs : Architecture → Nat
  | squeezenet => 512
  | resnet => 2048
  | mobileNet => 1280
  | alexNet => 4096

/-- How large the model for a number of classes is: each class adds a weight for every input of the
last layer, and an offset. -/
def size (a : Architecture) (classes : Int) : Outcome ModelSize :=
  if classes < 0 then .error (.plain .runtime)
  else
    let n := classes.toNat
    .ok ⟨a.innerParameters + (a.lastInputs + 1) * n, a.entryCount, [n]⟩

def ofId (d : Datum) : Outcome Architecture :=
  match d with
  | .list _ | .record _ | .foreign .set _ => .error (.plain .type)
  | d =>
      match all.find? fun a => Datum.sameKey d (.text a.id) with
      | some a => .ok a
      | none => .error (.unsupportedModel d.shown ids)

def loader (a : Architecture) (r : Repository) : Loader := ⟨a.title, a.artifact, r⟩

end Architecture

end Perception
