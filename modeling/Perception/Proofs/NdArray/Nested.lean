import Perception.Proofs.NdArray.Rows
import Perception.Proofs.Outcome

set_option autoImplicit false

/-! # What is found for a nested list

A nested list with two extents is a list of rows (`exists_rows_of_shape?`), and its leaves are the
items of the rows. The element type that is found for leaves is one of whole numbers exactly if the
leaves are whole numbers and truth values, a whole number is among them, and the whole numbers all
have one type of 64 bits (`isInteger_typeOf_iff`).
-/

namespace Perception

/-- The whole number that a value counts as among whole numbers: itself, or 0 or 1 for a truth
value. -/
def Datum.index? : Datum → Option Int
  | .int i => some i
  | .bool b => some (if b then 1 else 0)
  | _ => none

namespace NdArray

/-! ## Shape -/

theorem forall_of_allHaveShape {s : List Nat} {xs : List Datum} (h : allHaveShape s xs = true) :
    ∀ x ∈ xs, shape? x = some s := by
  induction xs with
  | nil => exact fun x hx => absurd hx List.not_mem_nil
  | cons y ys ih =>
      rw [allHaveShape, Bool.and_eq_true, beq_iff_eq] at h
      intro x hx
      rcases List.mem_cons.mp hx with rfl | hx
      · exact h.1
      · exact ih h.2 x hx

/-- What has a first extent is a list of as many items, which share the other extents. -/
theorem exists_of_shape?_cons {d : Datum} {n : Nat} {s : List Nat} (hn : 0 < n)
    (h : shape? d = some (n :: s)) :
    ∃ xs, d = .list xs ∧ xs.length = n ∧ ∀ x ∈ xs, shape? x = some s := by
  cases d with
  | list xs =>
      cases xs with
      | nil =>
          rw [shape?] at h
          injection h with h
          injection h with h _
          omega
      | cons x xs =>
          rw [shape?] at h
          obtain ⟨t, ht, h⟩ := Option.bind_eq_some_iff.mp h
          split at h
          · rename_i hall
            injection h with h
            injection h with hlen hs
            subst hs
            refine ⟨x :: xs, rfl, hlen, fun y hy => ?_⟩
            rcases List.mem_cons.mp hy with rfl | hy
            · exact ht
            · exact forall_of_allHaveShape hall y hy
          · cases h
  | _ => cases h

theorem leaves_of_shape?_nil {d : Datum} (h : shape? d = some []) : leaves d = [d] := by
  cases d with
  | list xs =>
      cases xs with
      | nil => cases h
      | cons x xs =>
          rw [shape?] at h
          obtain ⟨t, _, h⟩ := Option.bind_eq_some_iff.mp h
          split at h <;> cases h
  | _ => rfl

theorem shape?_of_index? {d : Datum} {i : Int} (h : d.index? = some i) : shape? d = some [] := by
  cases d with
  | int j => rfl
  | bool b => rfl
  | _ => cases h

/-! ## Rows -/

theorem leavesOf_of_forall {xs : List Datum} (h : ∀ x ∈ xs, shape? x = some []) :
    leavesOf xs = xs := by
  induction xs with
  | nil => rfl
  | cons x xs ih =>
      rw [leavesOf, leaves_of_shape?_nil (h x List.mem_cons_self),
        ih fun y hy => h y (List.mem_cons_of_mem _ hy), List.singleton_append]

/-- The leaves of rows are the items of the rows, if these are no lists. -/
theorem leaves_rows {rows : List (List Datum)}
    (h : ∀ row ∈ rows, ∀ x ∈ row, shape? x = some []) :
    leaves (.list (rows.map .list)) = rows.flatten := by
  rw [leaves]
  induction rows with
  | nil => rfl
  | cons row rows ih =>
      rw [List.map_cons, leavesOf, leaves, leavesOf_of_forall (h row List.mem_cons_self),
        ih fun r hr => h r (List.mem_cons_of_mem _ hr), List.flatten_cons]

/-- Rows of one length have two extents. -/
theorem shape?_rows {rows : List (List Datum)} {w : Nat} (hne : rows ≠ []) (hw : 0 < w)
    (hlen : ∀ row ∈ rows, row.length = w) (h : ∀ row ∈ rows, ∀ x ∈ row, shape? x = some []) :
    shape? (.list (rows.map .list)) = some [rows.length, w] := by
  have hitems : ∀ x ∈ rows.map Datum.list, shape? x = some [w] := by
    intro x hx
    obtain ⟨row, hrow, rfl⟩ := List.mem_map.mp hx
    have hrow' : row ≠ [] := List.ne_nil_of_length_pos (hlen row hrow ▸ hw)
    rw [shape?_list hrow' (h row hrow), hlen row hrow]
  rw [shape?_list (by simpa using hne) hitems, List.length_map]

/-- **What has two extents is a list of rows** of one length, whose items are no lists. -/
theorem exists_rows_of_shape? {d : Datum} {h w : Nat} (hh : 0 < h) (hw : 0 < w)
    (hs : shape? d = some [h, w]) :
    ∃ rows : List (List Datum), d = .list (rows.map .list) ∧ rows.length = h ∧
      (∀ row ∈ rows, row.length = w) ∧ ∀ row ∈ rows, ∀ x ∈ row, shape? x = some [] := by
  obtain ⟨xs, rfl, hlen, hxs⟩ := exists_of_shape?_cons hh hs
  have hrow : ∀ x ∈ xs, x = .list x.items ∧ x.items.length = w ∧
      ∀ y ∈ x.items, shape? y = some [] := by
    intro x hx
    obtain ⟨ys, rfl, hys⟩ := exists_of_shape?_cons hw (hxs x hx)
    exact ⟨rfl, hys⟩
  -- all items are lists, so nothing is lost when they are taken for their items
  have hback : (xs.map Datum.items).map Datum.list = xs := by
    rw [List.map_map]
    exact (List.map_congr_left fun x hx => (hrow x hx).1.symm).trans (List.map_id xs)
  refine ⟨xs.map Datum.items, by rw [hback], by rw [List.length_map, hlen], ?_, ?_⟩
  · intro row hrows
    obtain ⟨x, hx, rfl⟩ := List.mem_map.mp hrows
    exact (hrow x hx).2.1
  · intro row hrows
    obtain ⟨x, hx, rfl⟩ := List.mem_map.mp hrows
    exact (hrow x hx).2.2

/-! ## Element type -/

/-- One type of 64 bits holds all whole numbers among the leaves: the type with a sign, or only the
one without. -/
def HasWord (ls : List Datum) : Prop :=
  (∀ i, .int i ∈ ls → -0x8000000000000000 ≤ i ∧ i < 0x8000000000000000) ∨
    ∀ i, .int i ∈ ls → 0x8000000000000000 ≤ i ∧ i < 0x10000000000000000

/-- Leaves of a type of whole numbers, or truth values among them, count as whole numbers. -/
theorem exists_index? {t : ElementType} (ht : t = .signed 64 ∨ t = .unsigned 64) {d : Datum}
    (h : scalarType d = t ∨ scalarType d = .bool) : ∃ i, d.index? = some i := by
  rcases h with h | h
  · rcases ht with rfl | rfl
    · obtain ⟨i, rfl, -⟩ := (scalarType_eq_signed_iff d).mp h
      exact ⟨i, rfl⟩
    · obtain ⟨i, rfl, -⟩ := (scalarType_eq_unsigned_iff d).mp h
      exact ⟨i, rfl⟩
  · obtain ⟨b, rfl⟩ := (scalarType_eq_bool_iff d).mp h
    exact ⟨_, rfl⟩

/-- A whole number is no truth value, so among leaves of a type it has that type. -/
theorem scalarType_int {t : ElementType} {i : Int}
    (h : scalarType (.int i) = t ∨ scalarType (.int i) = .bool) : scalarType (.int i) = t := by
  refine h.resolve_right fun hbool => ?_
  obtain ⟨b, hb⟩ := (scalarType_eq_bool_iff _).mp hbool
  cases hb

/-- Leaves that are whole numbers of one type and truth values, not all of them truth values, have
that type together. -/
theorem typeOf_of_forall {t : ElementType} (ht : t.isInteger = true) {ls : List Datum}
    (hint : ∃ i, .int i ∈ ls) (hindex : ∀ d ∈ ls, ∃ i, d.index? = some i)
    (htype : ∀ i, .int i ∈ ls → scalarType (.int i) = t) : typeOf ls = t := by
  obtain ⟨i, hi⟩ := hint
  refine (typeOf_eq_iff ht ls).mpr ⟨⟨_, hi, htype i hi⟩, fun d hd => ?_⟩
  obtain ⟨j, hj⟩ := hindex d hd
  cases d with
  | int k => exact Or.inl (htype k hd)
  | bool b => exact Or.inr rfl
  | _ => cases hj

/-- **Leaves have a type of whole numbers** exactly if they are whole numbers and truth values, not
all of them truth values, and one type of 64 bits holds them. -/
theorem isInteger_typeOf_iff {ls : List Datum} : (typeOf ls).isInteger = true ↔
    (∃ i, .int i ∈ ls) ∧ (∀ d ∈ ls, ∃ i, d.index? = some i) ∧ HasWord ls := by
  constructor
  · intro ht
    obtain ⟨⟨d, hd, htype⟩, hall⟩ := (typeOf_eq_iff ht ls).mp rfl
    -- some leaf has the type, so it is one of the two that whole numbers have
    have hword : typeOf ls = .signed 64 ∨ typeOf ls = .unsigned 64 := by
      rw [← htype]
      exact scalarType_isInteger (htype ▸ ht)
    have hindex : ∀ d ∈ ls, ∃ i, d.index? = some i := fun d hd => exists_index? hword (hall d hd)
    rcases hword with hsigned | hunsigned
    · rw [hsigned] at hall htype
      obtain ⟨i, rfl, -⟩ := (scalarType_eq_signed_iff d).mp htype
      refine ⟨⟨i, hd⟩, hindex, Or.inl fun j hj => ?_⟩
      obtain ⟨k, hk, hfit⟩ := (scalarType_eq_signed_iff _).mp (scalarType_int (hall _ hj))
      cases hk
      exact hfit
    · rw [hunsigned] at hall htype
      obtain ⟨i, rfl, -⟩ := (scalarType_eq_unsigned_iff d).mp htype
      refine ⟨⟨i, hd⟩, hindex, Or.inr fun j hj => ?_⟩
      obtain ⟨k, hk, hfit⟩ := (scalarType_eq_unsigned_iff _).mp (scalarType_int (hall _ hj))
      cases hk
      exact hfit
  · rintro ⟨hint, hindex, hsigned | hunsigned⟩
    · rw [typeOf_of_forall (t := .signed 64) rfl hint hindex fun i hi =>
        (scalarType_eq_signed_iff _).mpr ⟨i, rfl, hsigned i hi⟩]
      rfl
    · rw [typeOf_of_forall (t := .unsigned 64) rfl hint hindex fun i hi =>
        (scalarType_eq_unsigned_iff _).mpr ⟨i, rfl, hunsigned i hi⟩]
      rfl

example : typeOf [.bool true, .int 0x8000000000000000] = .unsigned 64 := rfl

example : typeOf [.int 0, .int 0x8000000000000000] = .real 64 := rfl

/-! ## The array -/

theorem exists_of_isInteger {t : ElementType} (ht : t.isInteger = true) :
    (∃ n, t = .signed n) ∨ ∃ n, t = .unsigned n := by
  cases t with
  | signed n => exact Or.inl ⟨n, rfl⟩
  | unsigned n => exact Or.inr ⟨n, rfl⟩
  | _ => cases ht

/-- Where there is a type of whole numbers, a leaf is kept as the number that it counts as. -/
theorem settle_of_index? {t : ElementType} (ht : t.isInteger = true) {d : Datum} {i : Int}
    (h : d.index? = some i) : settle t d = .int i := by
  have hsettle : settle t (.int i) = .int i := by
    rcases exists_of_isInteger ht with ⟨n, rfl⟩ | ⟨n, rfl⟩ <;> rfl
  cases d with
  | bool b =>
      cases h
      rcases exists_of_isInteger ht with ⟨n, rfl⟩ | ⟨n, rfl⟩ <;> rfl
  | int j =>
      cases h
      exact hsettle
  | _ => cases h

/-- The array of a nested list of a known shape. -/
def found (d : Datum) (s : List Nat) : NdArray :=
  ⟨typeOf (leaves d), s, ((leaves d).map (settle (typeOf (leaves d)))).toArray⟩

theorem ofNested_of_shape? {d : Datum} {s : List Nat} (hs : shape? d = some s)
    (hrank : s.length ≤ maxRank) : ofNested d = .ok (found d s) := by
  rw [ofNested, hs]
  exact if_neg (Nat.not_lt.mpr hrank)

/-- The array of a nested list is not found, or is that of its shape. -/
theorem ofNested_cases (d : Datum) : ofNested d = .error (.plain .value) ∨
    ∃ s, shape? d = some s ∧ ofNested d = .ok (found d s) := by
  cases hs : shape? d with
  | none =>
      rw [ofNested, hs]
      exact Or.inl rfl
  | some s =>
      by_cases hrank : s.length ≤ maxRank
      · exact Or.inr ⟨s, rfl, ofNested_of_shape? hs hrank⟩
      · rw [ofNested, hs]
        exact Or.inl (if_pos (Nat.lt_of_not_le hrank))

theorem exists_of_ofNested {d : Datum} {a : NdArray} (h : ofNested d = .ok a) :
    ∃ s, shape? d = some s ∧ a = found d s := by
  rcases ofNested_cases d with herr | ⟨s, hs, hok⟩
  · rw [herr] at h
    cases h
  · rw [hok] at h
    exact ⟨s, hs, (Except.ok.inj h).symm⟩

/-! ## The array in a chosen type -/

/-- A list of whole numbers that a type of so many bits without a sign holds is an array of it. -/
theorem ofNestedAs_unsigned {bits : Nat} {ns : List Int}
    (h : ∀ n ∈ ns, (ElementType.unsigned bits).least ≤ n ∧ n ≤ (ElementType.unsigned bits).greatest) :
    ofNestedAs (.unsigned bits) (.list (ns.map .int))
      = .ok ⟨.unsigned bits, [ns.length], (ns.map Datum.int).toArray⟩ := by
  have hitems : ∀ x ∈ ns.map Datum.int, shape? x = some [] :=
    List.forall_mem_map.mpr fun n _ => shape?_int n
  have hshape : shape? (.list (ns.map .int)) = some [ns.length] := by
    by_cases hnil : ns = []
    · rw [hnil]
      rfl
    · rw [shape?_list (mt List.map_eq_nil_iff.mp hnil) hitems, List.length_map]
  have hconvert : ∀ x ∈ ns.map Datum.int, convert (.unsigned bits) x = .ok (id x) :=
    List.forall_mem_map.mpr fun n hn => if_pos (h n hn)
  have hrank : ¬maxRank < [ns.length].length := by
    show ¬64 < 1
    omega
  rw [ofNestedAs, hshape]
  dsimp only
  rw [if_neg hrank, leaves, leavesOf_of_forall hitems, Outcome.mapM_ok hconvert, List.map_id]
  rfl

end NdArray

end Perception
