import Mathlib.Data.List.Induction
import Perception.Files.Tree

set_option autoImplicit false

/-! # What is where after a change

Each change of a tree is described by what `FileTree.get?` finds afterwards at every location. Trees
in which every entry lies in a directory are well formed (`FileTree.WellFormed`); nothing lies below
a free location of theirs.
-/

namespace Perception.FileTree

variable {t u : FileTree} {l k : Location} {e : Entry}

/-! ## Lookups -/

@[simp] theorem get?_top (t : FileTree) : t.get? [] = some .directory := rfl

theorem get?_eq_find (t : FileTree) (h : l ≠ []) :
    t.get? l = (t.entries.find? fun e => e.1 == l).map Prod.snd := by
  rw [get?, if_neg h]

theorem get?_put_self (t : FileTree) (h : l ≠ []) (e : Entry) : (t.put l e).get? l = some e := by
  rw [get?_eq_find _ h, put, List.find?_cons_of_pos (by simp)]
  rfl

theorem get?_erase_ne (t : FileTree) (h : k ≠ l) : (t.erase l).get? k = t.get? k := by
  by_cases hk : k = []
  · rw [hk, get?_top, get?_top]
  · rw [get?_eq_find _ hk, get?_eq_find _ hk, erase, List.find?_filter]
    congr 2
    funext x
    by_cases hx : x.1 = k
    · simp [hx, h]
    · simp [hx]

theorem get?_put_ne (t : FileTree) (h : k ≠ l) (e : Entry) : (t.put l e).get? k = t.get? k := by
  rw [← t.get?_erase_ne h]
  by_cases hk : k = []
  · rw [hk, get?_top, get?_top]
  · rw [get?_eq_find _ hk, get?_eq_find _ hk, put, List.find?_cons_of_neg]
    simpa using h.symm

theorem get?_eraseAll_below (t : FileTree) (hl : l ≠ []) (h : l <+: k) :
    (t.eraseAll l).get? k = none := by
  have hk : k ≠ [] := by
    rintro rfl
    exact hl (List.prefix_nil.mp h)
  rw [get?_eq_find _ hk, eraseAll, List.find?_filter, Option.map_eq_none_iff, List.find?_eq_none]
  intro x _
  by_cases hx : x.1 = k
  · simp [hx, h]
  · simp [hx]

theorem get?_eraseAll_of_not_below (t : FileTree) (h : ¬l <+: k) :
    (t.eraseAll l).get? k = t.get? k := by
  have hprefix : l.isPrefixOf k = false := by
    rw [Bool.eq_false_iff]
    exact fun hp => h (List.isPrefixOf_iff_prefix.mp hp)
  by_cases hk : k = []
  · rw [hk, get?_top, get?_top]
  · rw [get?_eq_find _ hk, get?_eq_find _ hk, eraseAll, List.find?_filter]
    congr 2
    funext x
    by_cases hx : x.1 = k
    · simp [hx, hprefix]
    · simp [hx]

/-! ## Well-formed trees -/

/-- Every entry lies in a directory. -/
def WellFormed (t : FileTree) : Prop :=
  ∀ l e, t.get? l = some e → t.get? l.dropLast = some .directory

theorem isDirectoryAt_iff : t.isDirectoryAt l = true ↔ t.get? l = some .directory := by
  unfold isDirectoryAt
  cases t.get? l with
  | none => simp
  | some e => cases e <;> simp

/-- Whether a tree is well formed shows from its entries. -/
theorem wellFormed_of_entries (h : (t.entries.all fun e => t.isDirectoryAt e.1.dropLast) = true) :
    t.WellFormed := by
  intro l e hl
  by_cases hnil : l = []
  · rw [hnil, List.dropLast_nil, get?_top]
  · rw [get?_eq_find _ hnil, Option.map_eq_some_iff] at hl
    obtain ⟨x, hx, -⟩ := hl
    have hmem := List.mem_of_find?_eq_some hx
    have hkey : x.1 = l := by simpa using List.find?_some hx
    rw [← hkey]
    exact isDirectoryAt_iff.mp (List.all_eq_true.mp h x hmem)

/-- Above an entry there are directories only. -/
theorem WellFormed.directory_of_append (h : t.WellFormed) {below : List String}
    (hne : below ≠ []) (hl : t.get? (l ++ below) = some e) : t.get? l = some .directory := by
  induction below using List.reverseRecOn generalizing e with
  | nil => exact absurd rfl hne
  | append_singleton below n ih =>
      -- up by one name, to a directory that is an entry itself
      have hup := h _ _ hl
      rw [← List.append_assoc, List.dropLast_concat] at hup
      by_cases hb : below = []
      · rw [hb, List.append_nil] at hup
        exact hup
      · exact ih hb hup

/-- Nothing is below a free location. -/
theorem WellFormed.free_below (h : t.WellFormed) (hl : t.get? l = none) (hk : l <+: k) :
    t.get? k = none := by
  obtain ⟨below, rfl⟩ := hk
  by_cases hb : below = []
  · rw [hb, List.append_nil]
    exact hl
  · cases hk : t.get? (l ++ below) with
    | none => rfl
    | some e =>
        have := h.directory_of_append hb hk
        rw [hl] at this
        cases this

theorem ne_nil_of_free (h : t.get? l = none) : l ≠ [] := by
  rintro rfl
  rw [get?_top] at h
  cases h

/-- A new directory in a directory. -/
theorem WellFormed.put_directory (h : t.WellFormed) (hl : t.get? l = none)
    (hup : t.get? l.dropLast = some .directory) : (t.put l .directory).WellFormed := by
  have hne := ne_nil_of_free hl
  -- what the new directory lies in was there before, so it is another place
  have hself : l.dropLast ≠ l := by
    intro e
    rw [e, hl] at hup
    cases hup
  intro k e hk
  by_cases hkl : k = l
  · rw [hkl, get?_put_ne _ hself]
    exact hup
  · rw [get?_put_ne _ hkl] at hk
    by_cases hup' : k.dropLast = l
    · rw [hup', get?_put_self _ hne]
    · rw [get?_put_ne _ hup']
      exact h k e hk

end Perception.FileTree
