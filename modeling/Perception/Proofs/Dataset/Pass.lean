import Perception.Dataset.Feed
import Perception.Proofs.Dataset.Batches
import Perception.Proofs.Random.Permutation

set_option autoImplicit false

/-! # Passes request by request

What a pass still has to answer once it has begun is fixed by the samples that are left
(`PassStage.rest`): a request takes the first answer off (`BatchPlan.rest_request`), whatever has
been drawn meanwhile. So a pass that is asked often enough answers with the batches of one order of
the samples, and then that there are no more (`BatchPlan.answers`). Asked without a break it is the
pass of the plan, cut off after as many batches (`BatchPlan.requests_eq_take`).
-/

namespace Perception

open Perception.Random

namespace BatchPlan

variable (l : BatchPlan) {d d' : Draws} {stage stage' : PassStage} {left : List Nat}
  {a : Option (List Nat)}

/-! ## What is left to answer -/

def answers (indices : List Nat) : List (Option (List Nat)) :=
  (l.batchesOf indices).map some ++ [none]

end BatchPlan

/-- The answers that a pass which has begun still has to give. -/
def PassStage.rest (l : BatchPlan) : PassStage → List (Option (List Nat))
  | .waiting => []
  | .reading left => l.answers left
  | .drained => [none]
  | .finished => []

/-- What will have been drawn when a pass which has begun is over. -/
def PassStage.settle (l : BatchPlan) : PassStage → Draws → Draws
  | .reading _, d => l.exhaust d
  | _, d => d

namespace BatchPlan

variable (l : BatchPlan) {d d' : Draws} {stage stage' : PassStage} {left : List Nat}
  {a : Option (List Nat)}

/-- Giving a batch takes the first answer off those of the samples that are left. -/
theorem rest_serve (h : l.serve left d = (a, stage', d')) :
    l.answers left = a :: stage'.rest l ∧ stage'.settle l d' = l.exhaust d ∧
      stage' ≠ .waiting := by
  unfold serve at h
  by_cases hfull : l.batchSize ≤ left.length
  · rw [if_pos hfull] at h
    cases h
    refine ⟨?_, rfl, nofun⟩
    rw [answers, l.batchesOf_full hfull]
    rfl
  · rw [if_neg hfull] at h
    have hshort := l.batchesOf_short (Nat.not_le.mp hfull)
    by_cases hend : left = [] ∨ l.dropLast = true
    · rw [if_pos hend] at h hshort
      cases h
      exact ⟨by rw [answers, hshort]; rfl, rfl, nofun⟩
    · rw [if_neg hend] at h hshort
      cases h
      exact ⟨by rw [answers, hshort]; rfl, rfl, nofun⟩

/-- **A request takes the first answer off those that are left.** -/
theorem rest_request (hbegun : stage ≠ .waiting) (hnot : stage ≠ .finished)
    (h : l.request stage d = (a, stage', d')) :
    stage.rest l = a :: stage'.rest l ∧ stage'.settle l d' = stage.settle l d ∧
      stage' ≠ .waiting := by
  cases stage with
  | waiting => exact absurd rfl hbegun
  | reading left => exact l.rest_serve h
  | drained =>
      cases h
      exact ⟨rfl, rfl, nofun⟩
  | finished => exact absurd rfl hnot

/-- **The first request** settles the order, and takes the first answer off all of them. -/
theorem rest_first_request (h : l.request .waiting d = (a, stage', d')) :
    l.answers (l.order (begin d)).1 = a :: stage'.rest l ∧
      stage'.settle l d' = l.exhaust (l.order (begin d)).2 ∧ stage' ≠ .waiting :=
  l.rest_serve h

/-- No pass waits again. -/
theorem stage_ne_waiting (h : l.request stage d = (a, stage', d')) : stage' ≠ .waiting := by
  cases stage with
  | waiting => exact (l.rest_serve h).2.2
  | reading left => exact (l.rest_serve h).2.2
  | drained => cases h; exact nofun
  | finished => cases h; exact nofun

/-! ## The order -/

/-- An order in which a pass may visit the samples. -/
structure IsOrder (indices : List Nat) : Prop where
  perm : indices.Perm (List.range l.count)
  plain : l.shuffle = false → indices = List.range l.count

/-- **Each pass visits every sample once**, in order unless it shuffles. -/
theorem isOrder_order (d : Draws) : l.IsOrder (l.order d).1 := by
  unfold order
  cases hs : l.shuffle with
  | false => exact ⟨.refl _, fun _ => rfl⟩
  | true =>
      rw [if_neg (by decide)]
      refine ⟨?_, fun h => absurd (hs.symm.trans h) (by decide)⟩
      cases d.own with
      | some g => exact g.permutation_perm l.count
      | none => exact Generator.permutation_perm l.count _

/-! ## Passes that are asked without a break -/

theorem requests_finished (n : Nat) : l.requests n .finished d = ([], d) := by
  induction n with
  | zero => rfl
  | succ n ih => simp only [requests, request, ih, Option.toList_none, List.append_nil]

theorem requests_drained (n : Nat) : l.requests n .drained d = ([], d) := by
  cases n with
  | zero => rfl
  | succ n =>
      simp only [requests, request, requests_finished, Option.toList_none, List.append_nil]

theorem requests_reading (n : Nat) (left : List Nat) :
    l.requests n (.reading left) d
      = ((l.batchesOf left).take n, if n * l.batchSize > left.length then l.exhaust d else d) := by
  have hpos := l.positive
  induction n generalizing left with
  | zero => simp [requests]
  | succ n ih =>
      by_cases hfull : l.batchSize ≤ left.length
      · have hmore : n * l.batchSize > (left.drop l.batchSize).length
            ↔ (n + 1) * l.batchSize > left.length := by
          rw [List.length_drop, Nat.succ_mul]
          omega
        simp only [requests, request, serve, if_pos hfull, ih, l.batchesOf_full hfull, hmore,
          Option.toList_some, List.singleton_append, List.take_succ_cons]
      · have hmore : (n + 1) * l.batchSize > left.length := by
          rw [Nat.succ_mul]
          omega
        have hshort := l.batchesOf_short (Nat.not_le.mp hfull)
        by_cases hend : left = [] ∨ l.dropLast = true
        · rw [if_pos hend] at hshort
          simp only [requests, request, serve, if_neg hfull, if_pos hend, requests_finished, hshort,
            if_pos hmore, Option.toList_none, List.append_nil, List.take_nil]
        · rw [if_neg hend] at hshort
          simp only [requests, request, serve, if_neg hfull, if_neg hend, requests_drained, hshort,
            if_pos hmore, Option.toList_some, List.append_nil, List.take_succ_cons, List.take_nil]

/-- **A pass asked without a break** is the pass of the plan, cut off after so many batches. -/
theorem requests_eq_take (n : Nat) : l.requests n .waiting d = l.take n d := by
  cases n with
  | zero => rfl
  | succ n =>
      have hlen : (l.order (begin d)).1.length = l.count := by
        rw [(l.isOrder_order _).perm.length_eq, List.length_range]
      have hfirst : l.requests (n + 1) .waiting d
          = l.requests (n + 1) (.reading (l.order (begin d)).1) (l.order (begin d)).2 := rfl
      rw [hfirst, requests_reading, hlen]
      simp [take, exhaustedBy]

end BatchPlan

end Perception
