import Perception.Classification.Ranking
import Perception.Datum.Number
import Perception.Datum.Shown
import Perception.Json.Printer
import Perception.NdArray.Basic
import Perception.Text.Utf8

set_option autoImplicit false

/-! # Classifications

What a classifier makes of an image: a probability for each class. The classes can be asked for by
rank, and written down in the order of their rank.
-/

namespace Perception

/-- Labels with their probabilities, in the order of the outputs of a classifier. -/
structure Classification where
  items : List Scored

namespace Classification

def usualRanks : Int := 5

def make (labels : List Datum) (probabilities : List Float) : Outcome Classification :=
  if labels.length = probabilities.length then .ok ⟨List.zipWith Scored.mk labels probabilities⟩
  else .error (.nameCount labels.length probabilities.length)

def ofData (labels probabilities : Datum) : Outcome Classification := do
  let labels ← labels.listed
  let probabilities ← (← probabilities.listed).mapM Datum.toFloat
  make labels probabilities

def ranked (c : Classification) : List Scored := ranking c.items

/-- The `k` most probable items; a negative number leaves so many of the least probable out. -/
def top (c : Classification) (k : Int) : List Scored := Datum.upTo k c.ranked

def topOf (c : Classification) (k : Datum) : Outcome (List Scored) :=
  match k with
  | .null => .ok c.ranked
  | .bool b => .ok (c.top (if b then 1 else 0))
  | .int k => .ok (c.top k)
  | _ => .error (.plain .type)

def best (c : Classification) : Outcome Scored :=
  match c.top 1 with
  | s :: _ => .ok s
  | [] => .error (.plain .index)

def toDatum (c : Classification) : Datum :=
  .list (c.ranked.map fun s =>
    Datum.object [("class_name", s.label), ("probability", .float s.probability)])

def toJson (c : Classification) : String := Json.spread c.toDatum ++ "\n"

def toBytes (c : Classification) : Bytes := Bytes.ofString c.toJson

/-- A short account of the classification by its most probable item. -/
def describe (c : Classification) : Outcome String := do
  let s ← c.best
  return s!"Classifications(best={s.label.quotedForm}, "
    ++ s!"probability={Number.fixed 4 s.probability}, classes={c.items.length})"

end Classification

end Perception
