import Perception.Model.Repository
import Perception.NdArray.Reals

set_option autoImplicit false

/-! # Loading models

A model is laid out as named parameters of given shapes. A loader knows the artifact that holds
their values, which are taken over only if they fit the layout exactly (`Layout.restore`); if there
is no such artifact, the model stays as it was laid out.
-/

namespace Perception

/-- Names and shapes of the parameters of a model. -/
abbrev Layout := List (String × List Nat)

abbrev Weights := List (String × Reals)

namespace Layout

def linear (inputs : Nat) (outputs : Datum) : Outcome Layout :=
  match outputs with
  | .int n =>
      if n < 0 then .error (.plain .runtime)
      else .ok [("weight", [n.toNat, inputs]), ("bias", [n.toNat])]
  | _ => .error (.plain .type)

def value? (entries : List (Datum × Checkpoint)) (parameter : String × List Nat) : Option Reals :=
  match entries.find? fun e => Datum.sameKey e.1 (.text parameter.1) with
  | some (_, .tensor shape values) =>
      if shape = parameter.2 then some ⟨shape, (values.map Float.toFloat32).toArray⟩ else none
  | _ => none

/-- Does a layout have a parameter of the name that a key is? -/
def mentions (l : Layout) (key : Datum) : Bool :=
  l.any fun p => Datum.sameKey key (.text p.1)

/-- The values of all parameters: each must be stored in its shape, and nothing else may be. -/
def restore (l : Layout) (c : Checkpoint) : Outcome Weights :=
  match c with
  | .record entries =>
      if entries.all fun e => l.mentions e.1 then
        match l.mapM fun p => (value? entries p).map fun v => (p.1, v) with
        | some weights => .ok weights
        | none => .error (.plain .runtime)
      else .error (.plain .runtime)
  | _ => .error (.plain .type)

end Layout

namespace Checkpoint

def parametersKey : String := "model_state_dict"

/-- The parameters of a stored run, or the stored value itself if it is none. -/
def parameters (c : Checkpoint) : Checkpoint :=
  match c with
  | .record entries =>
      match entries.find? fun e => Datum.sameKey e.1 (.text parametersKey) with
      | some (_, c) => c
      | none => .record entries
  | c => c

def ofContent : Content → Outcome Checkpoint
  | .model c => .ok c
  | .bytes [] => .error (.plain .endOfFile)
  | _ => .error (.plain .unpickling)

end Checkpoint

/-- A loader by name, for an artifact in a repository. -/
structure Loader where
  title : String
  artifact : Artifact
  repository : Repository

/-- A model that was laid out and, where there were values for it, filled. -/
structure LoadedModel where
  layout : Layout
  weights : Option Weights

namespace Loader

def source : String := "modalkit.zoo.loader"

/-- How many classes a model tells apart if nothing else is asked for. -/
def usualClasses : Nat := 1000

def weightFile (l : Loader) : String := l.artifact.id ++ ".pth"

def describe (l : Loader) : String :=
  s!"{l.title}({l.artifact.group}:{l.artifact.id}:{l.artifact.version})"

/-- The model for a number of classes, laid out and filled with the values of the artifact. That
there is no such artifact is journalled and no failure. -/
def load (l : Loader) (layOut : Datum → Outcome Layout) (classes : Datum) : HostM LoadedModel := do
  let classes := if classes.isTruthy then classes else (usualClasses : Datum)
  let layout ← match layOut classes with
    | .ok layout => pure layout
    | .error e => throw e
  let path? ← tryCatch (some <$> l.repository.openFile l.artifact l.weightFile) fun e =>
    if e.kind = .notFound then pure none else throw e
  match path? with
  | none => do
      Host.note .warning source (s!"Weight file not found for {l.artifact.id} "
        ++ s!"{l.artifact.version} in {l.repository.describe}")
      return ⟨layout, none⟩
  | some path => do
      let stored ← Host.read path
      match Checkpoint.ofContent stored >>= fun c => layout.restore c.parameters with
      | .error e => throw e
      | .ok weights => do
          Host.note .info source s!"Loaded weights for {l.artifact.id} from {path}"
          return ⟨layout, some weights⟩

end Loader

end Perception
