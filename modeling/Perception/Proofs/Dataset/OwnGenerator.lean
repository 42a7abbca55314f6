import Perception.Proofs.Dataset.Pass

set_option autoImplicit false

/-! # Generators of a feed's own

A pass over a feed that has a generator of its own leaves the shared one alone, and what it answers
depends on its generator only: `BatchPlan.ordered` is the order that it takes, `BatchPlan.afterPass`
the generator once it is over.
-/

namespace Perception

open Perception.Random

namespace BatchPlan

variable (l : BatchPlan) {g shared : Generator} {d d' : Draws} {stage stage' : PassStage}
  {left : List Nat} {a : Option (List Nat)}

/-- The order of a pass that draws from a generator, and the generator once it is settled. -/
def ordered (g : Generator) : List Nat × Generator :=
  if l.shuffle then g.next63.2.permutation l.count else (List.range l.count, g.next63.2)

/-- A generator once a pass that draws from it has found no more samples. -/
def exhausted (g : Generator) : Generator :=
  if l.shuffle then (g.permutation l.count).2 else g

def afterPass (g : Generator) : Generator := l.exhausted (l.ordered g).2

def afterPasses (g : Generator) : Nat → Generator
  | 0 => g
  | k + 1 => l.afterPass (afterPasses g k)

theorem order_own : l.order (begin ⟨some g, shared⟩)
    = ((l.ordered g).1, ⟨some (l.ordered g).2, shared⟩) := by
  unfold order ordered begin
  cases l.shuffle <;> rfl

theorem exhaust_own : l.exhaust ⟨some g, shared⟩ = ⟨some (l.exhausted g), shared⟩ := by
  unfold exhaust exhausted
  cases l.shuffle <;> rfl

end BatchPlan

/-- The generator once a pass which has begun is over. -/
def PassStage.settled (l : BatchPlan) : PassStage → Generator → Generator
  | .reading _, g => l.exhausted g
  | _, g => g

theorem PassStage.settle_own (l : BatchPlan) (stage : PassStage) (g shared : Generator) :
    stage.settle l ⟨some g, shared⟩ = ⟨some (stage.settled l g), shared⟩ := by
  cases stage with
  | reading left => exact l.exhaust_own
  | _ => rfl

namespace BatchPlan

variable (l : BatchPlan) {g shared : Generator} {d d' : Draws} {stage stage' : PassStage}
  {left : List Nat} {a : Option (List Nat)}

/-- Giving a batch draws nothing but what is drawn where there are no more samples. -/
theorem draws_serve (h : l.serve left d = (a, stage', d')) : d' = d ∨ d' = l.exhaust d := by
  unfold serve at h
  split at h
  · cases h
    exact Or.inl rfl
  · split at h <;> cases h <;> exact Or.inr rfl

/-- A pass is over when it says that there are no more batches. -/
theorem serve_none_iff (h : l.serve left d = (a, stage', d')) :
    a = none ↔ stage' = .finished := by
  unfold serve at h
  split at h
  · cases h
    exact ⟨nofun, nofun⟩
  · split at h <;> cases h
    · exact ⟨fun _ => rfl, fun _ => rfl⟩
    · exact ⟨nofun, nofun⟩

theorem request_none_iff (h : l.request stage d = (a, stage', d')) :
    a = none ↔ stage' = .finished := by
  cases stage with
  | waiting => exact l.serve_none_iff h
  | reading left => exact l.serve_none_iff h
  | drained => cases h; exact ⟨fun _ => rfl, fun _ => rfl⟩
  | finished => cases h; exact ⟨fun _ => rfl, fun _ => rfl⟩

/-- **A request to a pass over a feed with a generator of its own draws from that only.** -/
theorem request_own (h : l.request stage ⟨some g, shared⟩ = (a, stage', d')) :
    ∃ g', d' = ⟨some g', shared⟩ := by
  have hserve : ∀ {left g}, l.serve left ⟨some g, shared⟩ = (a, stage', d') →
      ∃ g', d' = ⟨some g', shared⟩ := by
    intro left g h
    rcases l.draws_serve h with rfl | rfl
    · exact ⟨g, rfl⟩
    · exact ⟨l.exhausted g, l.exhaust_own⟩
  cases stage with
  | waiting =>
      have hfirst : l.request .waiting ⟨some g, shared⟩
          = l.serve (l.ordered g).1 ⟨some (l.ordered g).2, shared⟩ := by
        simp only [request, order_own]
      exact hserve (hfirst.symm.trans h)
  | reading left => exact hserve h
  | drained => cases h; exact ⟨g, rfl⟩
  | finished => cases h; exact ⟨g, rfl⟩

/-- What such a request takes off, and that the generator is on its way to the same end. -/
theorem rest_request_own (hbegun : stage ≠ .waiting) (hnot : stage ≠ .finished)
    (h : l.request stage ⟨some g, shared⟩ = (a, stage', d')) :
    ∃ g', d' = ⟨some g', shared⟩ ∧ stage.rest l = a :: stage'.rest l ∧
      stage'.settled l g' = stage.settled l g := by
  obtain ⟨g', rfl⟩ := l.request_own h
  obtain ⟨hrest, hsettle, -⟩ := l.rest_request hbegun hnot h
  rw [PassStage.settle_own, PassStage.settle_own] at hsettle
  exact ⟨g', rfl, hrest, Option.some.inj (congrArg Draws.own hsettle)⟩

/-- The same of the first request, which settles the order. -/
theorem rest_first_request_own (h : l.request .waiting ⟨some g, shared⟩ = (a, stage', d')) :
    ∃ g', d' = ⟨some g', shared⟩ ∧ l.answers (l.ordered g).1 = a :: stage'.rest l ∧
      stage'.settled l g' = l.afterPass g := by
  obtain ⟨g', rfl⟩ := l.request_own h
  obtain ⟨hrest, hsettle, -⟩ := l.rest_first_request h
  rw [order_own] at hrest hsettle
  rw [PassStage.settle_own, exhaust_own] at hsettle
  exact ⟨g', rfl, hrest, Option.some.inj (congrArg Draws.own hsettle)⟩

end BatchPlan

end Perception
