import Perception.Datum

set_option autoImplicit false

/-! # Values of keys

Of the values that a key is given, the last one counts: where one is set (`Datum.lookup_insert`), and
where a record is made from entries whose keys are texts (`Datum.lookup_ofEntries_eq_some_iff`).
-/

namespace Perception.Datum

theorem lookup_insert (es : List (Datum × Datum)) (k key : String) (v : Datum) :
    lookup (insert es (.text k) v) key = if k = key then some v else lookup es key := by
  induction es with
  | nil => rfl
  | cons e es ih =>
      rcases e with ⟨k', v'⟩
      cases k' with
      | text s =>
          by_cases hs : s = k
          · have hsame : sameKey (.text s) (.text k) = true := beq_iff_eq.mpr hs
            rw [insert, if_pos hsame, lookup, lookup, hs]
            split <;> rfl
          · have hother : ¬sameKey (.text s) (.text k) = true := fun h => hs (beq_iff_eq.mp h)
            rw [insert, if_neg hother, lookup, lookup, ih]
            by_cases hkey : s = key
            · have hk : ¬k = key := fun h => hs (hkey.trans h.symm)
              rw [if_pos hkey, if_neg hk, if_pos hkey]
            · rw [if_neg hkey, if_neg hkey]
      | _ => exact ih

/-- The entry is the last one of its key. -/
def IsLast (key : String) (v : Datum) (entries : List (Datum × Datum)) : Prop :=
  ∃ before after, entries = before ++ (.text key, v) :: after ∧ ∀ e ∈ after, e.1 ≠ .text key

/-- Setting entries one after another, each the value of a text. -/
theorem lookup_foldl_insert (key : String) (v : Datum) {es : List (Datum × Datum)}
    (hkeys : ∀ e ∈ es, ∃ k, e.1 = .text k) (r : List (Datum × Datum)) :
    lookup (es.foldl (fun r (k, v) => insert r k v) r) key = some v ↔
      IsLast key v es ∨ (∀ e ∈ es, e.1 ≠ .text key) ∧ lookup r key = some v := by
  induction es generalizing r with
  | nil =>
      constructor
      · exact fun h => Or.inr ⟨nofun, h⟩
      · rintro (⟨before, after, h, -⟩ | ⟨-, h⟩)
        · exact absurd h.symm (List.append_ne_nil_of_right_ne_nil _ (List.cons_ne_nil _ _))
        · exact h
  | cons e es ih =>
      obtain ⟨⟨k, hk⟩, hrest⟩ := List.forall_mem_cons.mp hkeys
      obtain ⟨_, w⟩ := e
      obtain rfl : _ = Datum.text k := hk
      rw [List.foldl_cons, ih hrest, lookup_insert]
      constructor
      · -- the last entry of the key is behind the first entry, or it is that one
        rintro (⟨before, after, rfl, hafter⟩ | ⟨hes, hlast⟩)
        · exact Or.inl ⟨_ :: before, after, rfl, hafter⟩
        · split at hlast
          · rename_i heq
            obtain rfl := heq
            cases hlast
            exact Or.inl ⟨[], es, rfl, hes⟩
          · rename_i hne
            exact Or.inr ⟨List.forall_mem_cons.mpr ⟨fun h => hne (Datum.text.inj h), hes⟩, hlast⟩
      · rintro (⟨before, after, heq, hafter⟩ | ⟨hes, hr⟩)
        · cases before with
          | nil =>
              cases heq
              exact Or.inr ⟨hafter, if_pos rfl⟩
          | cons e' before =>
              cases heq
              exact Or.inl ⟨before, after, rfl, hafter⟩
        · obtain ⟨hne, hes⟩ := List.forall_mem_cons.mp hes
          exact Or.inr ⟨hes, by rw [if_neg fun h => hne (congrArg _ h), hr]⟩

/-- **The last entry of a key gives its value.** -/
theorem lookup_ofEntries_eq_some_iff {key : String} {v : Datum} {es : List (Datum × Datum)}
    (hkeys : ∀ e ∈ es, ∃ k, e.1 = .text k) :
    lookup (ofEntries es) key = some v ↔ IsLast key v es := by
  rw [ofEntries, lookup_foldl_insert key v hkeys []]
  refine or_iff_left ?_
  rintro ⟨-, h⟩
  cases h

end Perception.Datum
