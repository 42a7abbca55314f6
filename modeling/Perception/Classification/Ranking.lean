import Perception.Datum.Listed
import Perception.Number.Rounding

set_option autoImplicit false

/-! # Rankings

Labels with probabilities, the most probable first; where two are equal, the order in which they
were given is kept. If some probabilities are no numbers, none of them is below or above another
one, and the order is that of insertion from behind, each item at the place that a search by halves
finds.
-/

namespace Perception

structure Scored where
  label : Datum
  probability : Float

namespace Ranking

/-- Where a search by halves ends between two places, going left where `left` says so. -/
def place (left : Nat → Bool) (l r : Nat) : Nat :=
  if l < r then
    let middle := (l + r) / 2
    if left middle then place left l middle else place left (middle + 1) r
  else l
termination_by r - l

def isBelow (a b : Scored) : Bool := a.probability < b.probability

/-- The items in front that follow an item without a step of the other kind, and the others. -/
def run (falling : Bool) (x : Scored) : List Scored → List Scored × List Scored
  | [] => ([], [])
  | y :: ys =>
      if isBelow y x = falling then
        let (front, rest) := run falling y ys
        (y :: front, rest)
      else ([], y :: ys)

def insertAll (sorted : Array Scored) : List Scored → Array Scored
  | [] => sorted
  | x :: xs =>
      let left (i : Nat) : Bool := (sorted[i]?.map (isBelow x)).getD false
      let i := place left 0 sorted.size
      insertAll (sorted.extract 0 i ++ #[x] ++ sorted.extract i sorted.size) xs

/-- Items from the least probable on: a run in front, turned round if it falls, into which the
others are inserted. -/
def rising : List Scored → List Scored
  | x :: y :: rest =>
      let falling := isBelow y x
      let (front, others) := run falling x (y :: rest)
      let start := if falling then (x :: front).reverse else x :: front
      (insertAll start.toArray others).toList
  | xs => xs

/-- Position of an item in the order of probabilities. -/
def key (s : Scored) : Int := (Number.orderKey? s.probability).getD 0

def isComparable (xs : List Scored) : Bool :=
  xs.all fun s => (Number.orderKey? s.probability).isSome

end Ranking

/-- Items from the most probable on. -/
def ranking (xs : List Scored) : List Scored :=
  if Ranking.isComparable xs then xs.mergeSort fun a b => decide (Ranking.key b ≤ Ranking.key a)
  else (Ranking.rising xs.reverse).reverse

end Perception
