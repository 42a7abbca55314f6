import Perception.Dataset.Batch
import Perception.Dataset.Order

set_option autoImplicit false

/-! # Feeds

A dataset in memory is read through a feed: the plan of its batches and, where it is seeded, a
generator of the feed's own. A pass over a feed is asked for one batch after another
(`BatchPlan.request`). It draws at the first request, where the order of the samples is settled, and
again when it finds no more samples; between two requests anything else may happen.
-/

namespace Perception

open Perception.Random

inductive PassStage
  /-- Nothing was asked of it yet. -/
  | waiting
  /-- Samples are left to give, in this order; it is not known yet whether there are more. -/
  | reading (left : List Nat)
  /-- A last batch was given that is smaller than the others. -/
  | drained
  /-- It has said that there are no more batches. -/
  | finished
  deriving DecidableEq, Repr

namespace BatchPlan

/-- Gives a batch of the samples that are left. Where these are too few, the pass finds out that
there are no more: they are given as a smaller batch, or dropped. -/
def serve (l : BatchPlan) (left : List Nat) (d : Draws) : Option (List Nat) × PassStage × Draws :=
  if l.batchSize ≤ left.length then
    (some (left.take l.batchSize), .reading (left.drop l.batchSize), d)
  else if left = [] ∨ l.dropLast then (none, .finished, l.exhaust d)
  else (some left, .drained, l.exhaust d)

/-- What a pass gives when it is asked for a batch, none at its end; and where it is then. -/
def request (l : BatchPlan) : PassStage → Draws → Option (List Nat) × PassStage × Draws
  | .waiting, d =>
      let (indices, d) := l.order (begin d)
      l.serve indices d
  | .reading left, d => l.serve left d
  | .drained, d => (none, .finished, d)
  | .finished, d => (none, .finished, d)

/-- What a pass gives to so many requests, one right after another. -/
def requests (l : BatchPlan) : Nat → PassStage → Draws → List (List Nat) × Draws
  | 0, _, d => ([], d)
  | n + 1, stage, d =>
      let (indices, stage, d) := l.request stage d
      let (rest, d) := requests l n stage d
      (indices.toList ++ rest, d)

end BatchPlan

/-- What a dataset is read through, pass after pass. -/
structure Feed where
  data : ArrayDataset
  plan : BatchPlan
  /-- The generator that only this feed draws from, if it is seeded. -/
  own : Option Generator

/-- A feed of a dataset. Its generator, if it has one, starts from the seed. -/
def ArrayDataset.feed (d : ArrayDataset) (p : Platform) (o : BatchOptions) : Outcome Feed := do
  let o ← LoaderOptions.ofOptions p o
  let plan ← BatchPlan.make d.size o
  return ⟨d, plan, o.seed.map Generator.ofLowWord⟩

end Perception
