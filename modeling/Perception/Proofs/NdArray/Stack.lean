import Perception.Dataset.Batch

set_option autoImplicit false

/-! # Rows and stacks

An array is well formed if it has as many elements as its shape says. Rows of a well-formed array
all have one shape, and rows of one shape can be stacked; the rows of the stack are the rows that
were stacked (`NdArray.stack_ok`).
-/

namespace Perception.NdArray

/-- There are as many elements as the shape says. -/
def WellFormed (a : NdArray) : Prop := a.elements.size = a.shape.foldl (· * ·) 1

/-- Rows that can be stacked: well formed, of one type and one shape. -/
structure IsRow (t : ElementType) (s : List Nat) (r : NdArray) : Prop where
  type : r.type = t
  shape : r.shape = s
  wellFormed : r.WellFormed

theorem foldl_mul_eq (m : Nat) (s : List Nat) : s.foldl (· * ·) m = m * s.foldl (· * ·) 1 := by
  induction s generalizing m with
  | nil => simp
  | cons n s ih => rw [List.foldl_cons, ih, List.foldl_cons, ih (1 * n), Nat.one_mul, Nat.mul_assoc]

theorem foldl_mul_cons (n : Nat) (s : List Nat) :
    (n :: s).foldl (· * ·) 1 = n * s.foldl (· * ·) 1 := by
  rw [List.foldl_cons, foldl_mul_eq, Nat.one_mul]

/-! ## Rows -/

theorem size_row {a : NdArray} {n : Nat} {s : List Nat} (hwf : a.WellFormed)
    (hshape : a.shape = n :: s) {i : Nat} (hi : i < n) :
    (a.row i).elements.size = s.foldl (· * ·) 1 := by
  rw [WellFormed, hshape, foldl_mul_cons] at hwf
  have hfit : i * s.foldl (· * ·) 1 + s.foldl (· * ·) 1 ≤ n * s.foldl (· * ·) 1 := by
    rw [← Nat.succ_mul]
    exact Nat.mul_le_mul_right _ hi
  simp only [row, hshape, List.tail_cons, Array.size_extract, hwf]
  omega

theorem isRow_row {a : NdArray} {n : Nat} {s : List Nat} (hwf : a.WellFormed)
    (hshape : a.shape = n :: s) {i : Nat} (hi : i < n) : IsRow a.type s (a.row i) := by
  have hs : (a.row i).shape = s := by rw [row, hshape, List.tail_cons]
  refine ⟨rfl, hs, ?_⟩
  rw [WellFormed, size_row hwf hshape hi, hs]

/-! ## Stacks -/

/-- Of lists of one length, one after the other, each is found again in its place. -/
theorem take_drop_flatten {α : Type} {k : Nat} {xss : List (List α)}
    (hlen : ∀ xs ∈ xss, xs.length = k) {j : Nat} (hj : j < xss.length) :
    (xss.flatten.drop (j * k)).take k = xss[j] := by
  induction xss generalizing j with
  | nil => exact absurd hj (Nat.not_lt_zero j)
  | cons xs xss ih =>
      have hxs : xs.length = k := hlen xs List.mem_cons_self
      rw [List.flatten_cons]
      cases j with
      | zero => rw [Nat.zero_mul, List.drop_zero, List.take_left' hxs, List.getElem_cons_zero]
      | succ j =>
          rw [Nat.succ_mul, Nat.add_comm, ← List.drop_drop, List.drop_left' hxs,
            List.getElem_cons_succ]
          exact ih (fun ys hys => hlen ys (List.mem_cons_of_mem _ hys)) _

structure IsStack (rows : List NdArray) (s : List Nat) (a : NdArray) : Prop where
  shape : a.shape = rows.length :: s
  wellFormed : a.WellFormed
  row : ∀ i (hi : i < rows.length), a.row i = rows[i]

theorem isStack_of_rows {rows : List NdArray} {t : ElementType} {s : List Nat}
    (hrows : ∀ r ∈ rows, IsRow t s r) :
    IsStack rows s ⟨t, rows.length :: s, (rows.flatMap fun r => r.elements.toList).toArray⟩ := by
  have hlen : ∀ xs ∈ rows.map (fun r => r.elements.toList), xs.length = s.foldl (· * ·) 1 := by
    intro xs hxs
    obtain ⟨r, hr, rfl⟩ := List.mem_map.mp hxs
    rw [Array.length_toList, (hrows r hr).wellFormed, (hrows r hr).shape]
  refine ⟨rfl, ?_, fun i hi => ?_⟩
  · show (rows.flatMap fun r => r.elements.toList).toArray.size = (rows.length :: s).foldl (· * ·) 1
    rw [List.size_toArray, List.length_flatMap, foldl_mul_cons]
    have hsum : (rows.map fun r => r.elements.toList.length)
        = List.replicate rows.length (s.foldl (· * ·) 1) := by
      refine List.eq_replicate_iff.mpr ⟨List.length_map _, fun n hn => ?_⟩
      obtain ⟨r, hr, rfl⟩ := List.mem_map.mp hn
      exact hlen _ (List.mem_map_of_mem hr)
    rw [hsum, List.sum_replicate_nat]
  · have hfound : (rows.flatMap fun r => r.elements.toList).toArray.extract
        (i * s.foldl (· * ·) 1) (i * s.foldl (· * ·) 1 + s.foldl (· * ·) 1) = rows[i].elements := by
      have hi' : i < (rows.map fun r => r.elements.toList).length := by rwa [List.length_map]
      rw [List.extract_toArray, List.extract_eq_take_drop, Nat.add_sub_cancel_left,
        List.flatMap_def, take_drop_flatten hlen hi', List.getElem_map]
    have hr := hrows rows[i] (List.getElem_mem hi)
    calc
      _ = NdArray.mk t s rows[i].elements := congrArg (NdArray.mk t s) hfound
      _ = rows[i] := by rw [← hr.type, ← hr.shape]

/-- **Rows of one shape can be stacked**, and are the rows of the stack. -/
theorem stack_ok {rows : List NdArray} {t : ElementType} {s : List Nat} (hne : rows ≠ [])
    (hrows : ∀ r ∈ rows, IsRow t s r) : ∃ a, stack rows = .ok a ∧ IsStack rows s a := by
  refine ⟨_, ?_, isStack_of_rows hrows⟩
  cases rows with
  | nil => exact absurd rfl hne
  | cons r rs =>
      have hr := hrows r List.mem_cons_self
      have hall : (rs.all fun q => decide (q.shape = r.shape)) = true := by
        refine List.all_eq_true.mpr fun q hq => decide_eq_true ?_
        rw [(hrows q (List.mem_cons_of_mem _ hq)).shape, hr.shape]
      rw [stack, if_pos hall, hr.type, hr.shape]

end Perception.NdArray
