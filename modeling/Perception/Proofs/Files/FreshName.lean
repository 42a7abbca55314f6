import Perception.Proofs.Files.Tree

set_option autoImplicit false

/-! # Fresh names

A fresh name is found by trying `tmp0`, `tmp1`, … . Of one more names than are used one must be
free, so the search ends at a free one (`FileTree.unusedName_notMem`). A fresh name in a directory
therefore names nothing there and differs from the given name (`FileTree.freshName_free`).
-/

namespace Perception.FileTree

/-- The name that is tried after `n` others. -/
def trial (n : Nat) : String := s!"tmp{n}"

theorem toList_trial (n : Nat) : (trial n).toList = "tmp".toList ++ Nat.toDigits 10 n := by
  show ("tmp" ++ Nat.repr n).toList = _
  rw [String.toList_append, Nat.toList_repr]

theorem trial_injective {m n : Nat} (h : trial m = trial n) : m = n := by
  have hchars : (trial m).toList = (trial n).toList := congrArg String.toList h
  rw [toList_trial, toList_trial] at hchars
  have hdigits : Nat.toDigits 10 m = Nat.toDigits 10 n := List.append_cancel_left hchars
  rw [← Nat.ofDigitChars_ten_toDigits (n := m), hdigits, Nat.ofDigitChars_ten_toDigits]

theorem trial_ne_dots (n : Nat) : trial n ≠ ".." := by
  intro h
  have hchars : (trial n).toList = "..".toList := congrArg String.toList h
  rw [toList_trial] at hchars
  exact absurd (List.cons.inj hchars).1 (by decide)

theorem unusedName_eq_trial (used : List String) (fuel n : Nat) :
    ∃ k, unusedName used fuel n = trial k := by
  induction fuel generalizing n with
  | zero => exact ⟨n, rfl⟩
  | succ fuel ih =>
      show ∃ k, (if used.contains (trial n) then unusedName used fuel (n + 1) else trial n) = trial k
      split
      · exact ih (n + 1)
      · exact ⟨n, rfl⟩

/-- The search does not end at a used name. `left` are the used names that may still be met. -/
theorem unusedName_notMem_of_left (used : List String) (fuel n : Nat) (left : List String)
    (hfuel : left.length ≤ fuel) (hleft : ∀ s ∈ used, s ∉ left → ∀ k, n ≤ k → s ≠ trial k) :
    unusedName used fuel n ∉ used := by
  induction fuel generalizing n left with
  | zero =>
      have hnil : left = [] := List.length_eq_zero_iff.mp (Nat.le_zero.mp hfuel)
      subst hnil
      intro hmem
      exact hleft _ hmem (List.not_mem_nil) n (Nat.le_refl n) rfl
  | succ fuel ih =>
      show (if used.contains (trial n) then unusedName used fuel (n + 1) else trial n) ∉ used
      by_cases hused : trial n ∈ used
      · rw [if_pos (List.contains_iff_mem.mpr hused)]
        have hmet : trial n ∈ left := by
          by_contra hnot
          exact hleft _ hused hnot n (Nat.le_refl n) rfl
        -- the name that was met is met no more
        refine ih (n + 1) (left.erase (trial n)) ?_ fun s hs hnot k hk => ?_
        · rw [List.length_erase_of_mem hmet]
          omega
        · by_cases hsn : s = trial n
          · rintro rfl
            have := trial_injective hsn
            omega
          · have hnot' : s ∉ left := fun hmem =>
              hnot ((List.mem_erase_of_ne hsn).mpr hmem)
            exact hleft s hs hnot' k (by omega)
      · rw [if_neg (fun h => hused (List.contains_iff_mem.mp h))]
        exact hused

/-- **The search ends at an unused name** if it may try as many names as are used. -/
theorem unusedName_notMem (used : List String) : unusedName used used.length 0 ∉ used :=
  unusedName_notMem_of_left used _ 0 used (Nat.le_refl _) fun _ hs hnot => absurd hs hnot

theorem mem_childNames {t : FileTree} {dir : Location} {n : String} {e : Entry}
    (h : t.get? (dir ++ [n]) = some e) : n ∈ t.childNames dir := by
  have hne : dir ++ [n] ≠ [] := List.append_ne_nil_of_right_ne_nil _ (List.cons_ne_nil _ _)
  rw [get?_eq_find _ hne, Option.map_eq_some_iff] at h
  obtain ⟨x, hx, -⟩ := h
  have hkey : x.1 = dir ++ [n] := by simpa using List.find?_some hx
  refine List.mem_filterMap.mpr ⟨x, List.mem_of_find?_eq_some hx, ?_⟩
  have hprefix : dir.isPrefixOf (dir ++ [n]) = true :=
    List.isPrefixOf_iff_prefix.mpr (List.prefix_append _ _)
  rw [hkey, hprefix]
  simp

/-- **A fresh name** differs from the given one and names nothing in the directory. -/
theorem freshName_free (t : FileTree) (dir : Location) (other : String) :
    t.freshName dir other ≠ other ∧ t.get? (dir ++ [t.freshName dir other]) = none := by
  have hfresh : t.freshName dir other ∉ other :: t.childNames dir := unusedName_notMem _
  obtain ⟨hother, hchild⟩ := not_or.mp (mt List.mem_cons.mpr hfresh)
  refine ⟨hother, ?_⟩
  cases hget : t.get? (dir ++ [t.freshName dir other]) with
  | none => rfl
  | some e => exact absurd (mem_childNames hget) hchild

/-- A fresh name leads down. -/
theorem freshName_ne_dots (t : FileTree) (dir : Location) (other : String) :
    t.freshName dir other ≠ ".." := by
  obtain ⟨k, hk⟩ := unusedName_eq_trial (other :: t.childNames dir)
    (other :: t.childNames dir).length 0
  rw [freshName, hk]
  exact trial_ne_dots k

end Perception.FileTree
