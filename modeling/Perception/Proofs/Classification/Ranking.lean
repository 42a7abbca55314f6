import Perception.Classification.Basic
import Perception.Proofs.Number.Order

set_option autoImplicit false

/-! # Rankings by probability

A ranking of items that all have a probability goes down in their probability, and keeps the order
of those that are equally probable (`isRanking_ranking`).
-/

namespace Perception

/-- Does an item come before another one? It is more probable, or as probable and in an earlier
place. -/
def Ranking.Before (a b : Scored × Nat) : Prop :=
  b.1.probability < a.1.probability ∨ (a.1.probability == b.1.probability) = true ∧ a.2 < b.2

/-- Is one list another one in the order of its ranks? It has the same items, each of which comes
before those behind it. -/
def IsRanking (items ranked : List Scored) : Prop :=
  ∃ placed : List (Scored × Nat), placed.Perm items.zipIdx ∧ placed.map Prod.fst = ranked ∧
    placed.Pairwise Ranking.Before

theorem IsRanking.length_eq {items ranked : List Scored} (h : IsRanking items ranked) :
    ranked.length = items.length := by
  obtain ⟨placed, hperm, rfl, -⟩ := h
  rw [List.length_map, hperm.length_eq, List.length_zipIdx]

namespace Ranking

variable {items : List Scored} {a b : Scored}

def precedes (a b : Scored) : Bool := decide (key b ≤ key a)

theorem precedes_trans (a b c : Scored) (hab : precedes a b = true) (hbc : precedes b c = true) :
    precedes a c = true := by
  simp only [precedes, decide_eq_true_eq] at hab hbc ⊢
  omega

theorem precedes_total (a b : Scored) : (precedes a b || precedes b a) = true := by
  simp only [precedes, Bool.or_eq_true, decide_eq_true_eq]
  omega

theorem orderKey?_of_number (h : a.probability.isNaN = false) :
    Number.orderKey? a.probability = some (key a) := by
  cases hkey : Number.orderKey? a.probability with
  | none =>
      rw [Number.orderKey?_eq_none.mp hkey] at h
      cases h
  | some i => rw [key, hkey, Option.getD_some]

theorem isComparable_of_numbers (h : ∀ s ∈ items, s.probability.isNaN = false) :
    isComparable items = true := by
  unfold isComparable
  rw [List.all_eq_true]
  intro s hs
  rw [orderKey?_of_number (h s hs)]
  rfl

/-- Items in different places, the first of which may precede the second, come in that order. -/
theorem before_of_precedes {p q : Scored × Nat} (hp : p.1.probability.isNaN = false)
    (hq : q.1.probability.isNaN = false) (hne : p.2 ≠ q.2)
    (h : List.zipIdxLE precedes p q = true) : Before p q := by
  have hkeyp := orderKey?_of_number hp
  have hkeyq := orderKey?_of_number hq
  unfold Before
  rw [Number.lt_iff_orderKey hkeyq hkeyp, Number.beq_iff_orderKey hkeyp hkeyq]
  unfold List.zipIdxLE precedes at h
  by_cases hpq : key q.1 ≤ key p.1
  · rw [if_pos (decide_eq_true hpq)] at h
    by_cases hqp : key p.1 ≤ key q.1
    · rw [if_pos (decide_eq_true hqp), decide_eq_true_eq] at h
      exact Or.inr ⟨by omega, by omega⟩
    · exact Or.inl (by omega)
  · rw [if_neg (by rw [decide_eq_true_eq]; exact hpq)] at h
    cases h

end Ranking

/-- A ranking of items that all have a probability sorts them by it. -/
theorem ranking_eq_mergeSort {items : List Scored}
    (h : ∀ s ∈ items, s.probability.isNaN = false) :
    ranking items = items.mergeSort Ranking.precedes := by
  rw [ranking, if_pos (Ranking.isComparable_of_numbers h)]
  rfl

/-- **A ranking** goes down in the probability, and keeps the order of those that are equally
probable. -/
theorem isRanking_ranking {items : List Scored}
    (h : ∀ s ∈ items, s.probability.isNaN = false) : IsRanking items (ranking items) := by
  let placed := items.zipIdx.mergeSort (List.zipIdxLE Ranking.precedes)
  have hperm : placed.Perm items.zipIdx := List.mergeSort_perm _ _
  refine ⟨placed, hperm, ?_, ?_⟩
  · rw [ranking_eq_mergeSort h]
    exact List.mergeSort_zipIdx
  · have hsorted : placed.Pairwise fun p q => List.zipIdxLE Ranking.precedes p q = true :=
      List.pairwise_mergeSort (List.zipIdxLE_trans Ranking.precedes_trans)
        (List.zipIdxLE_total Ranking.precedes_total) _
    -- no two items have one place, so one of any two comes before the other
    have hplaces : placed.Pairwise fun p q => p.2 ≠ q.2 := by
      have hnodup : (placed.map Prod.snd).Nodup := by
        rw [(hperm.map Prod.snd).nodup_iff, List.zipIdx_map_snd]
        exact List.nodup_range'
      exact List.pairwise_map.mp hnodup
    have hnumber : ∀ p ∈ placed, p.1.probability.isNaN = false := by
      intro p hp
      exact h p.1 (List.fst_mem_of_mem_zipIdx (hperm.mem_iff.mp hp))
    refine (hsorted.and hplaces).imp_of_mem fun {p q} hp hq hpq => ?_
    exact Ranking.before_of_precedes (hnumber p hp) (hnumber q hq) hpq.2 hpq.1

end Perception
