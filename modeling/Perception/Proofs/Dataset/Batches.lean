import Perception.Dataset.Order

set_option autoImplicit false

/-! # Indices in batches

Indices are put into batches from the front: a full batch is cut off as long as there is one
(`BatchPlan.batchesOf_full`), and what is left then is a smaller batch or dropped
(`BatchPlan.batchesOf_short`). From these two equations follow the sizes of all batches, and that
the batches one after the other are the indices (`BatchPlan.flatten_batchesOf`).
-/

namespace Perception.BatchPlan

/-! ## Cutting off batches -/

theorem groups_of_le {α : Type} {n : Nat} (hn : 0 < n) (fuel fuel' : Nat) (xs : List α)
    (h : xs.length ≤ fuel) (h' : xs.length ≤ fuel') : groups n fuel xs = groups n fuel' xs := by
  induction fuel generalizing fuel' xs with
  | zero =>
      rw [List.length_eq_zero_iff.mp (Nat.le_zero.mp h)]
      cases fuel' <;> rfl
  | succ fuel ih =>
      cases xs with
      | nil => cases fuel' <;> rfl
      | cons x xs =>
          cases fuel' with
          | zero => exact absurd h' (by simp)
          | succ fuel' =>
              have hdrop : ((x :: xs).drop n).length ≤ xs.length := by
                rw [List.length_drop, List.length_cons]
                omega
              rw [List.length_cons] at h h'
              simp only [groups]
              rw [ih fuel' _ (by omega) (by omega)]

variable (l : BatchPlan)

theorem groups_full {xs : List Nat} (h : l.batchSize ≤ xs.length) :
    groups l.batchSize xs.length xs = xs.take l.batchSize ::
      groups l.batchSize (xs.drop l.batchSize).length (xs.drop l.batchSize) := by
  have hpos := l.positive
  cases xs with
  | nil => exact absurd h (by simp; omega)
  | cons x xs =>
      simp only [groups, List.length_cons]
      rw [groups_of_le hpos xs.length _ _ (by simp; omega) (Nat.le_refl _)]

theorem groups_short {xs : List Nat} (h : xs.length < l.batchSize) :
    groups l.batchSize xs.length xs = if xs = [] then [] else [xs] := by
  cases xs with
  | nil => rfl
  | cons x xs =>
      have hdrop : (x :: xs).drop l.batchSize = [] := List.drop_eq_nil_of_le (by omega)
      have hnil : groups l.batchSize xs.length ([] : List Nat) = [] := by cases xs.length <;> rfl
      rw [if_neg (List.cons_ne_nil x xs)]
      simp only [groups, List.length_cons]
      rw [hdrop, hnil, List.take_of_length_le (by omega)]

/-- **Where there are enough indices a full batch is cut off.** -/
theorem batchesOf_full {xs : List Nat} (h : l.batchSize ≤ xs.length) :
    l.batchesOf xs = xs.take l.batchSize :: l.batchesOf (xs.drop l.batchSize) := by
  have hfull : decide ((xs.take l.batchSize).length = l.batchSize) = true := by
    rw [List.length_take, Nat.min_eq_left h]
    exact decide_eq_true rfl
  simp only [batchesOf]
  rw [l.groups_full h]
  cases l.dropLast with
  | true =>
      rw [if_pos rfl, if_pos rfl]
      exact List.filter_cons_of_pos hfull
  | false => rw [if_neg Bool.false_ne_true, if_neg Bool.false_ne_true]

/-- **Where there are too few they are a smaller batch**, unless there are none or they are
dropped. -/
theorem batchesOf_short {xs : List Nat} (h : xs.length < l.batchSize) :
    l.batchesOf xs = if xs = [] ∨ l.dropLast = true then [] else [xs] := by
  have hsmall : ¬decide (xs.length = l.batchSize) = true := by
    simpa using Nat.ne_of_lt h
  simp only [batchesOf]
  rw [l.groups_short h]
  by_cases hnil : xs = []
  · rw [if_pos hnil, if_pos (Or.inl hnil)]
    cases l.dropLast <;> rfl
  · rw [if_neg hnil]
    cases l.dropLast with
    | true =>
        rw [if_pos rfl, if_pos (Or.inr rfl)]
        exact List.filter_cons_of_neg hsmall
    | false =>
        rw [if_neg Bool.false_ne_true, if_neg]
        exact fun hor => hor.elim hnil Bool.false_ne_true

/-- What holds of too few indices, and of any once it holds of those after the first batch, holds of
all. -/
theorem batches_induction {motive : List Nat → Prop}
    (short : ∀ xs, xs.length < l.batchSize → motive xs)
    (full : ∀ xs, l.batchSize ≤ xs.length → motive (xs.drop l.batchSize) → motive xs)
    (xs : List Nat) : motive xs := by
  have hpos := l.positive
  induction hlen : xs.length using Nat.strongRecOn generalizing xs with
  | ind n ih =>
      by_cases h : xs.length < l.batchSize
      · exact short xs h
      · refine full xs (Nat.not_lt.mp h) (ih _ ?_ _ rfl)
        rw [List.length_drop]
        omega

/-! ## All batches -/

/-- One batch more than there are behind the first one. -/
theorem div_of_le {n : Nat} (h : l.batchSize ≤ n) :
    n / l.batchSize = (n - l.batchSize) / l.batchSize + 1 :=
  Nat.div_eq_sub_div l.positive h

/-- **The sizes of the batches**: all full but a last one, which holds the rest unless there is none
or it is dropped. -/
theorem map_length_batchesOf (xs : List Nat) :
    (l.batchesOf xs).map List.length
      = List.replicate (xs.length / l.batchSize) l.batchSize ++
        if xs.length % l.batchSize = 0 ∨ l.dropLast = true then []
        else [xs.length % l.batchSize] := by
  induction xs using l.batches_induction with
  | short xs h =>
      rw [l.batchesOf_short h, Nat.div_eq_of_lt h, Nat.mod_eq_of_lt h, List.replicate_zero,
        List.nil_append]
      simp only [List.length_eq_zero_iff]
      split <;> rfl
  | full xs h ih =>
      rw [l.batchesOf_full h, List.map_cons, ih, List.length_take, Nat.min_eq_left h,
        List.length_drop, l.div_of_le h, List.replicate_succ, List.cons_append,
        ← Nat.mod_eq_sub_mod h]

/-- **The batches one after the other are the indices**, less the rest if it is dropped. -/
theorem flatten_batchesOf (xs : List Nat) :
    (l.batchesOf xs).flatten
      = if l.dropLast then xs.take (xs.length / l.batchSize * l.batchSize) else xs := by
  induction xs using l.batches_induction with
  | short xs h =>
      rw [l.batchesOf_short h, Nat.div_eq_of_lt h, Nat.zero_mul, List.take_zero]
      by_cases hnil : xs = []
      · rw [if_pos (Or.inl hnil), hnil]
        split <;> rfl
      · cases l.dropLast with
        | true => rw [if_pos (Or.inr rfl), if_pos rfl, List.flatten_nil]
        | false =>
            rw [if_neg (fun hor => hor.elim hnil Bool.false_ne_true), if_neg Bool.false_ne_true,
              List.flatten_cons, List.flatten_nil, List.append_nil]
  | full xs h ih =>
      rw [l.batchesOf_full h, List.flatten_cons, ih]
      cases l.dropLast with
      | true =>
          rw [if_pos rfl, if_pos rfl, List.length_drop, l.div_of_le h, Nat.succ_mul,
            Nat.add_comm _ l.batchSize, List.take_add]
      | false =>
          rw [if_neg Bool.false_ne_true, if_neg Bool.false_ne_true, List.take_append_drop]

/-- **The number of batches** is the quotient, rounded down where the rest is dropped and up where
it is not. -/
theorem length_batchesOf (xs : List Nat) :
    (l.batchesOf xs).length
      = if l.dropLast then xs.length / l.batchSize
        else (xs.length + l.batchSize - 1) / l.batchSize := by
  have hpos := l.positive
  -- along the batches: fewer numbers than a batch has, or a batch and what is left
  induction xs using l.batches_induction with
  | short xs h =>
      rw [l.batchesOf_short h, Nat.div_eq_of_lt h]
      by_cases hnil : xs = []
      · have hzero : (xs.length + l.batchSize - 1) / l.batchSize = 0 := by
          rw [hnil]
          exact Nat.div_eq_of_lt (by simp; omega)
        rw [if_pos (Or.inl hnil), hzero, List.length_nil, ite_self]
      · have hone : (xs.length + l.batchSize - 1) / l.batchSize = 1 := by
          have := List.length_pos_iff.mpr hnil
          exact Nat.div_eq_of_lt_le (by omega) (by omega)
        rw [hone]
        cases l.dropLast with
        | true => rw [if_pos (Or.inr rfl), if_pos rfl, List.length_nil]
        | false =>
            rw [if_neg (fun hor => hor.elim hnil Bool.false_ne_true), if_neg Bool.false_ne_true,
              List.length_singleton]
  | full xs h ih =>
      have hup : (xs.length + l.batchSize - 1) / l.batchSize
          = (xs.length - l.batchSize + l.batchSize - 1) / l.batchSize + 1 := by
        rw [l.div_of_le (by omega)]
        congr 2
        omega
      rw [l.batchesOf_full h, List.length_cons, ih, List.length_drop, hup, l.div_of_le h]
      split <;> rfl

/-- Every index in a batch is one of the indices. -/
theorem mem_of_mem_batchesOf {xs is : List Nat} (h : is ∈ l.batchesOf xs) {i : Nat} (hi : i ∈ is) :
    i ∈ xs := by
  have hmem : i ∈ (l.batchesOf xs).flatten := List.mem_flatten.mpr ⟨is, h, hi⟩
  rw [l.flatten_batchesOf] at hmem
  split at hmem
  · exact List.mem_of_mem_take hmem
  · exact hmem

/-- No batch is empty. -/
theorem ne_nil_of_mem_batchesOf {xs is : List Nat} (h : is ∈ l.batchesOf xs) : is ≠ [] := by
  have hpos := l.positive
  have hsize : is.length ∈ (l.batchesOf xs).map List.length := List.mem_map_of_mem h
  rw [l.map_length_batchesOf] at hsize
  rintro rfl
  rcases List.mem_append.mp hsize with hsize | hsize
  · have := List.eq_of_mem_replicate hsize
    rw [List.length_nil] at this
    omega
  · split at hsize
    · exact List.not_mem_nil hsize
    · rw [List.mem_singleton, List.length_nil] at hsize
      exact absurd (Or.inl hsize.symm) ‹_›

end Perception.BatchPlan
