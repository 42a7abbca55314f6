import Perception.Dataset.Options

set_option autoImplicit false

/-! # The order of samples

A pass over a dataset visits its samples in order, or in a random one, and puts them into batches
(`BatchPlan.pass`). Each pass draws from a generator of the loader's own, if it has one, and from
the shared one otherwise; a generator of its own is made once, so a second pass goes on where the
first one stopped. A pass that finds no more samples draws one permutation more, a pass that is
abandoned before does not.
-/

namespace Perception

open Perception.Random

/-- What a pass needs to know of the dataset and the options. -/
structure BatchPlan where
  count : Nat
  batchSize : Nat
  dropLast : Bool
  shuffle : Bool
  /-- Batches are not empty. -/
  positive : 0 < batchSize

/-- The generators that passes draw from: the loader's own, if it has one, and the shared one. -/
structure Draws where
  own : Option Generator
  shared : Generator

namespace BatchPlan

/-- A loader of so many samples: the size of batches must be a positive whole number, and there must
be samples if they are to be shuffled. -/
def make (count : Nat) (o : LoaderOptions) : Outcome BatchPlan :=
  if count = 0 ∧ o.shuffle.isTruthy then .error (.plain .value)
  else
    match o.batchSize, o.dropLast with
    | .int (.ofNat (n + 1)), .bool b => .ok ⟨count, n + 1, b, o.shuffle.isTruthy, n.succ_pos⟩
    | _, _ => .error (.plain .value)

def batchCount (l : BatchPlan) : Nat :=
  if l.dropLast then l.count / l.batchSize else (l.count + l.batchSize - 1) / l.batchSize

/-- The items of a list in groups of `n`, the last of which may be smaller. `fuel` is at least the
length. -/
def groups {α : Type} (n : Nat) : Nat → List α → List (List α)
  | 0, _ => []
  | _, [] => []
  | fuel + 1, xs => xs.take n :: groups n fuel (xs.drop n)

def batchesOf (l : BatchPlan) (indices : List Nat) : List (List Nat) :=
  let gs := groups l.batchSize indices.length indices
  if l.dropLast then gs.filter fun g => g.length = l.batchSize else gs

/-- Draws what every pass draws at its start. -/
def begin (d : Draws) : Draws :=
  match d.own with
  | some g => { d with own := some g.next63.2 }
  | none => { d with shared := d.shared.next63.2 }

/-- The order in which a pass visits the samples. A loader without a generator of its own takes the
seed of the order from the shared one. -/
def order (l : BatchPlan) (d : Draws) : List Nat × Draws :=
  if !l.shuffle then (List.range l.count, d)
  else
    match d.own with
    | some g =>
        let (p, g) := g.permutation l.count
        (p, { d with own := some g })
    | none =>
        let (seed, shared) := d.shared.next63
        let (p, _) := (Generator.ofLowWord seed).permutation l.count
        (p, { d with shared := shared })

/-- Draws what a pass draws when it finds no more samples. -/
def exhaust (l : BatchPlan) (d : Draws) : Draws :=
  if !l.shuffle then d
  else
    match d.own with
    | some g => { d with own := some (g.permutation l.count).2 }
    | none => d

/-- Does a pass that is asked for `n` batches only find out that there are no more samples? -/
def exhaustedBy (l : BatchPlan) (n : Nat) : Bool := n * l.batchSize > l.count

/-- The first `n` batches of a pass that is abandoned then. A pass that is asked for none does not
begin. -/
def take (l : BatchPlan) (n : Nat) (d : Draws) : List (List Nat) × Draws :=
  if n = 0 then ([], d)
  else
    let (indices, d) := l.order (begin d)
    ((l.batchesOf indices).take n, if l.exhaustedBy n then l.exhaust d else d)

def pass (l : BatchPlan) (d : Draws) : List (List Nat) × Draws :=
  let (indices, d) := l.order (begin d)
  (l.batchesOf indices, l.exhaust d)

end BatchPlan

/-- The generators at the start: the loader's own is set by its seed. -/
def Draws.start (o : LoaderOptions) (shared : Generator) : Draws :=
  ⟨o.seed.map Generator.ofLowWord, shared⟩

end Perception
