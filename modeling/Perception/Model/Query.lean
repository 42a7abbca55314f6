import Perception.Model.Classifier

set_option autoImplicit false

/-! # Images classified one after another

A classifier is asked about one image after another, each time with another model perhaps, and the
machine may be another one each time (`Classifier.answers`). What stays in between are the labels
that it read.
-/

namespace Perception

/-- An image to classify with a model, and how many of the best classes are asked for. -/
structure Query where
  /-- What has become of the machine in the meantime. -/
  meanwhile : Host → Host
  model : Reals → List Float32
  image : Image
  ranks : Int

/-- A query that was made, what came of it, and the classifier afterwards. -/
structure Classified where
  query : Query
  outcome : Outcome (List Scored)
  classifier : Classifier

def Query.ask (q : Query) (c : Classifier) : HostM (Outcome (List Scored) × Classifier) := do
  modify q.meanwhile
  c.predict q.model q.image (.int q.ranks)

/-- Makes one query after another. The log says what came of each of them. -/
def Classifier.answers (c : Classifier) : List Query → HostM (List Classified × Classifier)
  | [] => return ([], c)
  | q :: qs => do
      let (outcome, c) ← q.ask c
      let (log, now) ← answers c qs
      return (⟨q, outcome, c⟩ :: log, now)

end Perception
