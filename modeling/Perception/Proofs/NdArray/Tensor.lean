import Perception.Proofs.NdArray.Stack
import Perception.Proofs.Outcome

set_option autoImplicit false

/-! # Tensors are well formed

The tensor of a nested list has as many elements as its shape says, since the leaves were counted
against the shape level by level (`NdArray.length_leavesOfShape`). So the tensor of what a caller
hands over is well formed, if the array is that he may have handed over
(`NdArray.wellFormed_asTensor`).
-/

namespace Perception

/-- What a caller hands over: a value of any sort, or an array that is well formed. -/
def ArrayLike.WellFormed : ArrayLike → Prop
  | nested _ => True
  | array a => a.WellFormed

namespace NdArray

/-- **A value of some shape has as many leaves as the shape says.** -/
theorem length_leavesOfShape {s : List Nat} {d : Datum} {ls : List Datum}
    (h : leavesOfShape s d = .ok ls) : ls.length = s.foldl (· * ·) 1 := by
  induction s generalizing d ls with
  | nil =>
      cases d <;> cases h
      all_goals rfl
  | cons n s ih =>
      cases d with
      | list xs =>
          unfold leavesOfShape at h
          by_cases hn : xs.length = n
          · rw [if_pos hn] at h
            cases hm : xs.mapM (leavesOfShape s) with
            | error e =>
                rw [hm] at h
                cases h
            | ok lss =>
                rw [hm] at h
                cases h
                -- each item has as many leaves as the rest of the shape says
                obtain ⟨hcount, hall⟩ := Outcome.forall_of_mapM_ok (fun _ _ => ih) hm
                have hrep : lss.map List.length = List.replicate n (s.foldl (· * ·) 1) :=
                  List.eq_replicate_iff.mpr
                    ⟨by rw [List.length_map, hcount, hn], List.forall_mem_map.mpr hall⟩
                rw [List.length_flatten, hrep, List.sum_replicate_nat, foldl_mul_cons]
          · rw [if_neg hn] at h
            cases h
      | _ => cases h

/-- The tensor of a value that is no text. -/
theorem tensorOf_none {d : Datum} (h : ∀ s, d ≠ .text s) :
    tensorOf none d = (do
      let s ← firstShape (maxTensorRank + 1) d
      let t ← tensorType (leaves d)
      let ls ← leavesOfShape s d
      let es ← ls.mapM (store t)
      return ⟨t, s, es.toArray⟩) := by
  cases d with
  | text s => exact absurd rfl (h s)
  | _ => rfl

theorem wellFormed_tensorOf {d : Datum} {a : NdArray} (h : tensorOf none d = .ok a) :
    a.WellFormed := by
  have htext : ∀ s, d ≠ .text s := by
    rintro s rfl
    cases h
  rw [tensorOf_none htext] at h
  obtain ⟨s, -, h⟩ := Outcome.exists_of_bind_ok h
  obtain ⟨t, -, h⟩ := Outcome.exists_of_bind_ok h
  obtain ⟨ls, hls, h⟩ := Outcome.exists_of_bind_ok h
  obtain ⟨es, hes, h⟩ := Outcome.exists_of_bind_ok h
  cases h
  have hcount := (Outcome.forall_of_mapM_ok (fun _ _ _ => trivial) hes).1
  rw [WellFormed, List.size_toArray, hcount, length_leavesOfShape hls]

/-- **The tensor of what a caller hands over** is well formed. -/
theorem wellFormed_asTensor {x : ArrayLike} (hx : x.WellFormed) {a : NdArray}
    (h : asTensor x = .ok a) : a.WellFormed := by
  cases x with
  | nested d => exact wellFormed_tensorOf h
  | array b =>
      simp only [asTensor] at h
      split at h
      · cases h
      · cases h
      · cases h
        exact hx

end NdArray

end Perception
