import Perception.Dataset.Feed
import Perception.Mask.Palette

set_option autoImplicit false

/-! # Workbenches

What a program has at hand that reads datasets: the three shared generators, the feeds it has
opened, and the passes over them, of which any number may be under way at a time. A program is a
list of actions (`Workbench.Action`); each request for a batch leaves an event in the log of the run
(`Workbench.run`).
-/

namespace Perception

open Perception.Random

/-- A pass over the feed of some number. -/
structure Pass where
  feed : Nat
  stage : PassStage
  deriving DecidableEq, Repr

/-- Shared generators, feeds, and passes over these. -/
structure Workbench where
  streams : Streams
  feeds : List Feed
  passes : List Pass

namespace Workbench

inductive Action
  /-- Seed all streams. -/
  | seed (d : Datum)
  /-- Draw the colours of a mask. -/
  | palette (m : Mask) (t : Transparency)
  /-- Whatever else leaves the streams like this. -/
  | other (s : Streams)
  /-- Open a feed of a dataset. -/
  | openFeed (d : ArrayDataset) (p : Platform) (o : BatchOptions)
  /-- Begin another pass over a feed. -/
  | beginPass (feed : Nat)
  /-- Ask a pass for its next batch. -/
  | request (pass : Nat)

/-- Is an action a request to this pass? -/
def Action.asks (i : Nat) : Action → Bool
  | request j => j = i
  | _ => false

/-- What a pass answered to a request: a batch, or that there are no more. -/
structure Event where
  feed : Nat
  pass : Nat
  answer : Option (Outcome Batch)

def addFeed (w : Workbench) (f : Feed) : Workbench := { w with feeds := w.feeds ++ [f] }

/-- Asks a pass over a feed for a batch. The feed draws from its own generator, or from the shared
one for tensors. -/
def ask (w : Workbench) (i : Nat) (pass : Pass) (f : Feed) : Workbench × Event :=
  let (indices, stage, draws) := f.plan.request pass.stage ⟨f.own, w.streams.tensors⟩
  ({ streams := { w.streams with tensors := draws.shared }
     feeds := w.feeds.set pass.feed { f with own := draws.own }
     passes := w.passes.set i { pass with stage := stage } },
    ⟨pass.feed, i, indices.map f.data.batch⟩)

/-- The workbench after an action, and the event, if there is one. A pass that is over answers no
more; what fails, or names something that there is not, changes nothing. -/
def step (w : Workbench) : Action → Workbench × Option Event
  | .seed d =>
      match Streams.seedOf d with
      | .ok i => ({ w with streams := (w.streams.seed i).1 }, none)
      | .error _ => (w, none)
  | .palette m t =>
      ({ w with streams := { w.streams with arrays := (m.palette t w.streams.arrays).2 } }, none)
  | .other s => ({ w with streams := s }, none)
  | .openFeed d p o =>
      match d.feed p o with
      | .ok f => (w.addFeed f, none)
      | .error _ => (w, none)
  | .beginPass x =>
      if x < w.feeds.length then ({ w with passes := w.passes ++ [⟨x, .waiting⟩] }, none)
      else (w, none)
  | .request i =>
      match w.passes[i]? with
      | none => (w, none)
      | some pass =>
          match w.feeds[pass.feed]? with
          | none => (w, none)
          | some f =>
              if pass.stage = .finished then (w, none)
              else
                let (w, e) := w.ask i pass f
                (w, some e)

/-- The workbench after some actions, and the events in their order. -/
def run (w : Workbench) : List Action → Workbench × List Event
  | [] => (w, [])
  | a :: as =>
      let (w, e) := w.step a
      let (w, es) := run w as
      (w, e.toList ++ es)

/-- What a pass answered, according to a log. -/
def answersOf (i : Nat) (log : List Event) : List (Option (Outcome Batch)) :=
  log.filterMap fun e => if e.pass = i then some e.answer else none

/-- The passes over a feed that came to their ends, according to a log and in its order. -/
def endedIn (x : Nat) (log : List Event) : List Nat :=
  log.filterMap fun e => if e.feed = x ∧ e.answer = none then some e.pass else none

end Workbench

end Perception
