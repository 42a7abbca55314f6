import Perception.Random.Streams

set_option autoImplicit false

/-! # Random orders

The numbers below `n` in random order are a permutation of these, whatever the generator draws
(`Generator.permutation_perm`): each step swaps two places.
-/

namespace Perception.Random.Generator

/-- Writing two items over each other's places swaps them. -/
theorem setIfInBounds_eq_swap (a : Array Nat) {i j : Nat} (hi : i < a.size) (hj : j < a.size) :
    (a.setIfInBounds i (a.getD j 0)).setIfInBounds j (a.getD i 0) = a.swap i j := by
  rw [Array.swap_def, Array.getD_eq_getD_getElem?, Array.getD_eq_getD_getElem?,
    Array.getElem?_eq_getElem hi, Array.getElem?_eq_getElem hj]
  simp [Array.setIfInBounds, hi, hj]

/-- **Each step of a shuffle swaps two places.** -/
theorem shuffleFrom_perm (left i : Nat) (a : Array Nat) (g : Generator) (h : i + left ≤ a.size) :
    (shuffleFrom left i a g).1.Perm a := by
  fun_induction shuffleFrom left i a g with
  | case1 i a g => exact .rfl
  | case2 i a g => exact .rfl
  | case3 left i a g w g' hnext j x y ih =>
      have hj : j < a.size := by
        have hmod : w.toNat % (left + 2) < left + 2 := Nat.mod_lt _ (by omega)
        omega
      have hswap := setIfInBounds_eq_swap a (show i < a.size by omega) hj
      rw [hswap] at ih ⊢
      exact (ih (by rw [Array.size_swap]; omega)).trans (Array.swap_perm (by omega) hj)

/-- **The numbers below `n` in random order** are these numbers. -/
theorem permutation_perm (n : Nat) (g : Generator) : (g.permutation n).1.Perm (List.range n) := by
  have h := shuffleFrom_perm n 0 (Array.range n) g (by simp)
  simpa [permutation] using h.toList

end Perception.Random.Generator
