import Perception.Mask.Basic
import Perception.Proofs.Image.Grid
import Perception.Proofs.Mask.RoundTrip
import Perception.Proofs.NdArray.Nested
import Perception.Proofs.NdArray.Stack
import Perception.Proofs.Outcome

set_option autoImplicit false

/-! # Which values are masks

What a caller hands over is a grid of whole numbers, of one or not at all (`ArrayLike.IsGrid`), and
a mask is made of it exactly if it is one and all its numbers are indices of the classes. Main
result: `Mask.ofArray_valid`, with what is kept of the grid, and what the failure says otherwise.

An array of whole numbers is looked at first (`Mask.ofNdArray_inside`, `Mask.ofNdArray_outside`).
A nested list comes down to the array that is found for it: if that is one of whole numbers, both
are the same grids (`ArrayLike.isGrid_iff_of_isInteger`), and it is one of whole numbers if one type
of 64 bits is that of all the numbers (`ArrayLike.isInteger_of_isGrid`).
-/

namespace Perception

/-- The first cell of a grid, row after row, that has a property, with its column and its row. -/
structure Grid.IsFirst {α : Type} (P : α → Prop) (g : Grid α) (x y : Nat) (c : α) : Prop where
  cell : g.get? x y = some c
  holds : P c
  first : ∀ x' y' c', y' < y ∨ y' = y ∧ x' < x → g.get? x' y' = some c' → ¬P c'

namespace Grid

variable {α : Type}

/-- What comes first among the cells comes first row by row. -/
theorem isFirst_of_getElem? {P : α → Prop} {g : Grid α} {k : Nat} {c : α}
    (h : g.cells[k]? = some c) (hc : P c)
    (hfirst : ∀ j < k, ∀ c', g.cells[j]? = some c' → ¬P c') :
    g.IsFirst P (k % g.width) (k / g.width) c := by
  refine ⟨get?_of_getElem? h, hc, fun x y c' hplace hget => ?_⟩
  rw [get?] at hget
  split at hget
  · rename_i hin
    refine hfirst (y * g.width + x) ?_ c' hget
    have hk : k / g.width * g.width + k % g.width = k := Nat.div_add_mod' k g.width
    rcases hplace with hy | ⟨rfl, hx⟩
    · -- the row ends before the row of the cell starts
      have hrows : (y + 1) * g.width ≤ k / g.width * g.width := Nat.mul_le_mul_right _ hy
      rw [Nat.succ_mul] at hrows
      omega
    · omega
  · cases hget

end Grid

/-! ## Grids that a caller hands over -/

/-- An array as it comes from a caller: it has as many elements as its shape says, and where its
type is one of whole numbers, that is what they are. -/
structure NdArray.IsSound (a : NdArray) : Prop where
  wellFormed : a.WellFormed
  whole : a.type.isInteger = true → ∀ d ∈ a.elements, ∃ i, d = .int i

namespace ArrayLike

def IsSound : ArrayLike → Prop
  | nested _ => True
  | array a => a.IsSound

/-- The value is a grid of whole numbers that has places: either rows of one length with whole
numbers and truth values in them, not all of them truth values, or an array of two dimensions whose
type is one of whole numbers. -/
inductive IsGrid : ArrayLike → Grid Int → Prop
  | nested {rows : List (List Datum)} {g : Grid Int} (hpos : 0 < g.width ∧ 0 < g.height)
      (hrows : rows.map (List.map Datum.index?) = g.rows.map (List.map some))
      (hint : ∃ row ∈ rows, ∃ i, .int i ∈ row) : IsGrid (.nested (.list (rows.map .list))) g
  | array {t : ElementType} {g : Grid Int} (hpos : 0 < g.width ∧ 0 < g.height)
      (ht : t.isInteger = true) : IsGrid (.array ⟨t, [g.height, g.width], g.cells.map .int⟩) g

theorem IsGrid.pos {x : ArrayLike} {g : Grid Int} (h : x.IsGrid g) :
    0 < g.width ∧ 0 < g.height := by
  cases h with
  | nested hpos _ _ => exact hpos
  | array hpos _ => exact hpos

/-- An array is a grid by its type, its shape and its elements. -/
theorem isGrid_array_iff {a : NdArray} {g : Grid Int} : (array a).IsGrid g ↔
    (0 < g.width ∧ 0 < g.height) ∧ a.type.isInteger = true ∧ a.shape = [g.height, g.width] ∧
      a.elements.toList = g.cells.toList.map .int := by
  constructor
  · intro h
    cases h with
    | array hpos ht => exact ⟨hpos, ht, rfl, Array.toList_map⟩
  · obtain ⟨t, s, es⟩ := a
    rintro ⟨hpos, ht, hs, hes⟩
    obtain rfl : s = [g.height, g.width] := hs
    obtain rfl : es = g.cells.map .int := Array.toList_inj.mp (hes.trans Array.toList_map.symm)
    exact .array hpos ht

theorem map_length_rows {α : Type} {rows : List (List α)} {w : Nat}
    (h : ∀ row ∈ rows, row.length = w) :
    rows.map List.length = List.replicate rows.length w := by
  refine List.eq_replicate_iff.mpr ⟨List.length_map _, fun n hn => ?_⟩
  obtain ⟨row, hrow, rfl⟩ := List.mem_map.mp hn
  exact h row hrow

/-- A nested list is a grid by its shape and its leaves. -/
theorem isGrid_nested_iff {d : Datum} {g : Grid Int} : (nested d).IsGrid g ↔
    (0 < g.width ∧ 0 < g.height) ∧ NdArray.shape? d = some [g.height, g.width] ∧
      (NdArray.leaves d).map Datum.index? = g.cells.toList.map some ∧
      ∃ i, .int i ∈ NdArray.leaves d := by
  constructor
  · intro h
    cases h with
    | @nested rows _ hpos hrows hint =>
        -- each row has as many items as the grid is wide, and all of them are numbers
        have hrow : ∀ row ∈ rows, row.length = g.width ∧ ∀ x ∈ row, ∃ i, x.index? = some i := by
          intro row hrow
          have hmem : row.map Datum.index? ∈ g.rows.map (List.map some) :=
            hrows ▸ List.mem_map_of_mem hrow
          obtain ⟨cells, hcells, heq⟩ := List.mem_map.mp hmem
          constructor
          · have hlen := congrArg List.length heq
            rw [List.length_map, List.length_map, Grid.length_of_mem_rows hcells] at hlen
            exact hlen.symm
          · intro x hx
            have hx' : x.index? ∈ cells.map some := heq ▸ List.mem_map_of_mem hx
            obtain ⟨i, _, hi⟩ := List.mem_map.mp hx'
            exact ⟨i, hi.symm⟩
        have hscalar : ∀ row ∈ rows, ∀ x ∈ row, NdArray.shape? x = some [] := by
          intro row hr x hx
          obtain ⟨i, hi⟩ := (hrow row hr).2 x hx
          exact NdArray.shape?_of_index? hi
        have hlen : rows.length = g.height := by
          have := congrArg List.length hrows
          rwa [List.length_map, List.length_map, Grid.length_rows] at this
        have hne : rows ≠ [] := List.ne_nil_of_length_pos (hlen ▸ hpos.2)
        refine ⟨hpos, ?_, ?_, ?_⟩
        · rw [NdArray.shape?_rows hne hpos.1 (fun row hr => (hrow row hr).1) hscalar, hlen]
        · rw [NdArray.leaves_rows hscalar, List.map_flatten, hrows, ← List.map_flatten,
            Grid.flatten_rows]
        · obtain ⟨row, hr, i, hi⟩ := hint
          rw [NdArray.leaves_rows hscalar]
          exact ⟨i, List.mem_flatten.mpr ⟨row, hr, hi⟩⟩
  · rintro ⟨hpos, hshape, hleaves, i, hi⟩
    -- a shape of two dimensions is one of rows
    obtain ⟨rows, rfl, hlen, hwidth, hscalar⟩ :=
      NdArray.exists_rows_of_shape? hpos.2 hpos.1 hshape
    rw [NdArray.leaves_rows hscalar] at hleaves hi
    refine .nested hpos ?_ ?_
    · -- the same items one after another, in rows of the same lengths
      refine List.eq_iff_flatten_eq.mpr ⟨?_, ?_⟩
      · rw [← List.map_flatten, hleaves, ← List.map_flatten, Grid.flatten_rows]
      · have hleft : ∀ row ∈ rows.map (List.map Datum.index?), row.length = g.width :=
          List.forall_mem_map.mpr fun row hr => (List.length_map _).trans (hwidth row hr)
        have hright : ∀ row ∈ g.rows.map (List.map some), row.length = g.width :=
          List.forall_mem_map.mpr fun row hr =>
            (List.length_map _).trans (Grid.length_of_mem_rows hr)
        rw [map_length_rows hleft, map_length_rows hright, List.length_map, List.length_map, hlen,
          Grid.length_rows]
    · obtain ⟨row, hr, hi⟩ := List.mem_flatten.mp hi
      exact ⟨row, hr, i, hi⟩

/-! ## The array that is found -/

theorem kind_of_toNdArray {x : ArrayLike} {e : Failure} (h : x.toNdArray = .error e) :
    e.kind = .value := by
  cases x with
  | array a => cases h
  | nested d =>
      rcases NdArray.ofNested_cases d with herr | ⟨s, -, hok⟩
      · rw [toNdArray, herr] at h
        cases h
        rfl
      · rw [toNdArray, hok] at h
        cases h

/-- A grid has an array, of the same shape. -/
theorem exists_toNdArray {x : ArrayLike} {g : Grid Int} (h : x.IsGrid g) :
    ∃ a, x.toNdArray = .ok a ∧ a.shape = [g.height, g.width] := by
  cases x with
  | nested d =>
      obtain ⟨-, hshape, -⟩ := isGrid_nested_iff.mp h
      exact ⟨_, NdArray.ofNested_of_shape? hshape (by simp [NdArray.maxRank]), rfl⟩
  | array a =>
      cases h with
      | array hpos ht => exact ⟨_, rfl, rfl⟩

/-- Leaves are settled as the cells of a grid if they count as its cells. -/
theorem map_settle_eq_iff {t : ElementType} (ht : t.isInteger = true) {ls : List Datum}
    (hls : ∀ d ∈ ls, ∃ i, d.index? = some i) {is : List Int} :
    ls.map (NdArray.settle t) = is.map .int ↔ ls.map Datum.index? = is.map some := by
  induction ls generalizing is with
  | nil => cases is <;> simp
  | cons d ls ih =>
      obtain ⟨i, hi⟩ := hls d List.mem_cons_self
      cases is with
      | nil => simp
      | cons j is =>
          rw [List.map_cons, List.map_cons, List.map_cons, List.map_cons, List.cons.injEq,
            List.cons.injEq, ih fun e he => hls e (List.mem_cons_of_mem _ he), hi,
            NdArray.settle_of_index? ht hi, Datum.int.injEq, Option.some.injEq]

/-- **Where the array that is found is one of whole numbers, it is the grids that the value is.** -/
theorem isGrid_iff_of_isInteger {x : ArrayLike} {a : NdArray} (hx : x.toNdArray = .ok a)
    (ht : a.type.isInteger = true) {g : Grid Int} : x.IsGrid g ↔ (array a).IsGrid g := by
  cases x with
  | array b =>
      cases hx
      exact Iff.rfl
  | nested d =>
      obtain ⟨s, hs, rfl⟩ := NdArray.exists_of_ofNested hx
      obtain ⟨hint, hls, -⟩ := NdArray.isInteger_typeOf_iff.mp ht
      rw [isGrid_nested_iff, isGrid_array_iff, hs, ← map_settle_eq_iff ht hls]
      constructor
      · rintro ⟨hpos, hshape, hcells, -⟩
        exact ⟨hpos, ht, Option.some.inj hshape, hcells⟩
      · rintro ⟨hpos, -, hshape, hcells⟩
        exact ⟨hpos, congrArg some hshape, hcells, hint⟩

/-- A grid has an array of whole numbers if its numbers all have one type of 64 bits. -/
theorem isInteger_of_isGrid {x : ArrayLike} {a : NdArray} {g : Grid Int}
    (hx : x.toNdArray = .ok a) (h : x.IsGrid g)
    (hword : (∀ i ∈ g.cells, -0x8000000000000000 ≤ i ∧ i < 0x8000000000000000) ∨
      ∀ i ∈ g.cells, 0x8000000000000000 ≤ i ∧ i < 0x10000000000000000) :
    a.type.isInteger = true := by
  cases x with
  | array b =>
      cases hx
      exact (isGrid_array_iff.mp h).2.1
  | nested d =>
      obtain ⟨-, -, hleaves, hint⟩ := isGrid_nested_iff.mp h
      have hcell : ∀ e ∈ NdArray.leaves d, ∃ i ∈ g.cells, e.index? = some i := by
        intro e he
        have hmem : e.index? ∈ g.cells.toList.map some := hleaves ▸ List.mem_map_of_mem he
        obtain ⟨i, hi, heq⟩ := List.mem_map.mp hmem
        exact ⟨i, Array.mem_toList_iff.mp hi, heq.symm⟩
      -- truth values have no part in which type suffices
      have hnumber : ∀ i, .int i ∈ NdArray.leaves d → i ∈ g.cells := by
        intro i hi
        obtain ⟨j, hj, heq⟩ := hcell _ hi
        cases heq
        exact hj
      obtain ⟨s, -, rfl⟩ := NdArray.exists_of_ofNested hx
      refine NdArray.isInteger_typeOf_iff.mpr ⟨hint, fun e he => ?_, ?_⟩
      · obtain ⟨i, -, heq⟩ := hcell e he
        exact ⟨i, heq⟩
      · exact hword.imp (fun h i hi => h i (hnumber i hi)) fun h i hi => h i (hnumber i hi)

/-- An array of two dimensions that is found, and is one of whole numbers, is a grid. -/
theorem exists_isGrid {x : ArrayLike} {a : NdArray} {h w : Nat} (hsound : x.IsSound)
    (hx : x.toNdArray = .ok a) (ht : a.type.isInteger = true) (hs : a.shape = [h, w])
    (hpos : 0 < w ∧ 0 < h) : ∃ g, (array a).IsGrid g := by
  -- the elements are whole numbers, and as many as there are places
  have helements : a.elements.size = w * h ∧ ∀ d ∈ a.elements.toList, ∃ i, d = .int i := by
    cases x with
    | array b =>
        cases hx
        refine ⟨?_, fun d hd => hsound.whole ht d (Array.mem_toList_iff.mp hd)⟩
        rw [hsound.wellFormed, hs, NdArray.foldl_mul_cons, NdArray.foldl_mul_cons, Nat.mul_comm]
        simp
    | nested d =>
        obtain ⟨s, hshape, rfl⟩ := NdArray.exists_of_ofNested hx
        obtain ⟨-, hls, -⟩ := NdArray.isInteger_typeOf_iff.mp ht
        obtain rfl : s = [h, w] := hs
        constructor
        · obtain ⟨rows, rfl, hlen, hwidth, hscalar⟩ :=
            NdArray.exists_rows_of_shape? hpos.2 hpos.1 hshape
          rw [NdArray.found, List.size_toArray, List.length_map, NdArray.leaves_rows hscalar,
            List.length_flatten, map_length_rows hwidth, List.sum_replicate_nat, hlen, Nat.mul_comm]
        · intro e he
          obtain ⟨d, hd, rfl⟩ := List.mem_map.mp he
          obtain ⟨i, hi⟩ := hls d hd
          exact ⟨i, NdArray.settle_of_index? ht hi⟩
  obtain ⟨hsize, hint⟩ := helements
  let g : Grid Int := ⟨w, h, a.elements.map fun d => d.int?.getD 0, by simpa using hsize⟩
  refine ⟨g, isGrid_array_iff.mpr ⟨hpos, ht, hs, ?_⟩⟩
  rw [Array.toList_map, List.map_map]
  refine ((List.map_congr_left fun d hd => ?_).trans (List.map_id _)).symm
  obtain ⟨i, rfl⟩ := hint d hd
  rfl

end ArrayLike

namespace Mask

/-! ## Indices -/

def IsIndex (n : Nat) (i : Int) : Prop := 0 ≤ i ∧ i < n

theorem firstOutside_cases (n place : Nat) (is : List Int) :
    ((∀ i ∈ is, IsIndex n i) ∧ firstOutside n place is = none) ∨
      ∃ k i, is[k]? = some i ∧ ¬IsIndex n i ∧
        (∀ j < k, ∀ v, is[j]? = some v → IsIndex n v) ∧
        firstOutside n place is = some (i, place + k) := by
  -- the place is where the rest of the numbers starts
  induction is generalizing place with
  | nil => exact Or.inl ⟨fun i hi => absurd hi List.not_mem_nil, rfl⟩
  | cons i is ih =>
      by_cases hi : IsIndex n i
      · have hstep : firstOutside n place (i :: is) = firstOutside n (place + 1) is := if_pos hi
        rw [hstep]
        rcases ih (place + 1) with ⟨hall, hnone⟩ | ⟨k, v, hk, hv, hbefore, hsome⟩
        · refine Or.inl ⟨fun v hv => ?_, hnone⟩
          rcases List.mem_cons.mp hv with rfl | hv
          · exact hi
          · exact hall v hv
        · refine Or.inr ⟨k + 1, v, hk, hv, fun j hj u hu => ?_, ?_⟩
          · cases j with
            | zero =>
                cases hu
                exact hi
            | succ j => exact hbefore j (Nat.lt_of_succ_lt_succ hj) u hu
          · rw [hsome, Nat.add_assoc, Nat.add_comm 1 k]
      · exact Or.inr ⟨0, i, rfl, hi, fun j hj => absurd hj (Nat.not_lt_zero j), if_neg hi⟩

/-- If not all numbers of a grid are indices, the first that is none is the one that is found. -/
theorem exists_firstOutside {n : Nat} {g : Grid Int} (h : ∃ i ∈ g.cells, ¬IsIndex n i) :
    ∃ i place, firstOutside n 0 g.cells.toList = some (i, place) ∧
      g.IsFirst (fun i => ¬IsIndex n i) (place % g.width) (place / g.width) i := by
  rcases firstOutside_cases n 0 g.cells.toList with ⟨hall, -⟩ | ⟨k, i, hk, hi, hbefore, hsome⟩
  · obtain ⟨i, hi, hout⟩ := h
    exact absurd (hall i (Array.mem_toList_iff.mpr hi)) hout
  · rw [Array.getElem?_toList] at hk
    rw [Nat.zero_add] at hsome
    refine ⟨i, k, hsome, Grid.isFirst_of_getElem? hk hi fun j hj v hv => ?_⟩
    exact not_not_intro (hbefore j hj v (Array.getElem?_toList.trans hv))

/-! ## Arrays of two dimensions -/

variable {classes : List String} {a : NdArray} {g : Grid Int}

theorem indices_eq (h : (ArrayLike.array a).IsGrid g) :
    (a.elements.toList.map fun d => d.int?.getD 0) = g.cells.toList := by
  obtain ⟨-, -, -, helements⟩ := ArrayLike.isGrid_array_iff.mp h
  rw [helements, List.map_map]
  exact List.map_id _

/-- **A grid of indices is a mask**, which has the same numbers in the same places. -/
theorem ofNdArray_inside (h : (ArrayLike.array a).IsGrid g)
    (hclasses : classes.length ≤ indexBound) (hin : ∀ i ∈ g.cells, IsIndex classes.length i) :
    ∃ m, ofNdArray classes a = .ok m ∧ m.classes = classes ∧ m.cells.map Int.ofNat = g := by
  obtain ⟨hpos, ht, hs, helements⟩ := ArrayLike.isGrid_array_iff.mp h
  have hback : ∀ i ∈ g.cells, Int.ofNat i.toNat = i := fun i hi => Int.toNat_of_nonneg (hin i hi).1
  have hmap : (g.map Int.toNat).map Int.ofNat = g := by
    rw [Grid.map_map, Grid.map_id_of_forall hback]
  have hbound : ∀ c ∈ (g.map Int.toNat).cells, c < classes.length := by
    intro c hc
    obtain ⟨i, hi, rfl⟩ := Array.mem_map.mp hc
    have := hin i hi
    unfold IsIndex at this
    omega
  have hfits : ∀ c ∈ (g.map Int.toNat).cells, c < indexBound :=
    fun c hc => Nat.lt_of_lt_of_le (hbound c hc) hclasses
  -- the array is the one that the cells of the mask are written as
  have ha : a = ⟨a.type, [(g.map Int.toNat).height, (g.map Int.toNat).width],
      ((g.map Int.toNat).cells.toList.map fun (n : Nat) => Datum.int n).toArray⟩ := by
    obtain ⟨t, s, es⟩ := a
    obtain rfl : s = [g.height, g.width] := hs
    have hes : es.toList = (g.map Int.toNat).cells.toList.map fun (n : Nat) => Datum.int n := by
      calc es.toList = g.cells.toList.map .int := helements
        _ = ((g.map Int.toNat).map Int.ofNat).cells.toList.map .int := by rw [hmap]
        _ = _ := by
          rw [Grid.map, Array.toList_map, List.map_map]
          rfl
    rw [← hes]
    rfl
  rw [ha]
  exact ⟨_, ofNdArray_cells ht hpos hbound hfits, rfl, hmap⟩

/-- A grid with a number in it that is no index is refused with the first of them. -/
theorem ofNdArray_outside (h : (ArrayLike.array a).IsGrid g) {i : Int} {place : Nat}
    (hfirst : firstOutside classes.length 0 g.cells.toList = some (i, place)) :
    ofNdArray classes a
      = .error (.classOutside i (place / g.width) (place % g.width) classes.length) := by
  obtain ⟨hpos, ht, hs, -⟩ := ArrayLike.isGrid_array_iff.mp h
  have hsize : g.height * g.width ≠ 0 := Nat.mul_ne_zero (by omega) (by omega)
  simp only [ofNdArray, hs, hsize, ht, indices_eq h, hfirst, if_false, Bool.not_true,
    Bool.false_eq_true]

theorem ofNdArray_of_not_isInteger {h w : Nat} (hs : a.shape = [h, w]) (hpos : 0 < w ∧ 0 < h)
    (ht : a.type.isInteger = false) :
    ofNdArray classes a = .error (.maskSort a.type.name) := by
  have hsize : h * w ≠ 0 := Nat.mul_ne_zero (by omega) (by omega)
  simp only [ofNdArray, hs, hsize, ht, if_false, Bool.not_false, if_true]

/-- What is no grid is refused as a bad value. -/
theorem ofNdArray_of_no_grid {x : ArrayLike} (hsound : x.IsSound) (hx : x.toNdArray = .ok a)
    (hno : ∀ g, ¬x.IsGrid g) : ∃ e, ofNdArray classes a = .error e ∧ e.kind = .value := by
  have hshape : (∃ h w, a.shape = [h, w] ∧ 0 < w ∧ 0 < h) ∨
      ofNdArray classes a = .error (.maskShape a.shape) := by
    unfold ofNdArray
    split
    · rename_i h w hs
      by_cases hzero : h * w = 0
      · exact Or.inr (if_pos hzero)
      · have hpos := Nat.pos_of_ne_zero hzero
        exact Or.inl ⟨h, w, hs, Nat.pos_of_mul_pos_left hpos, Nat.pos_of_mul_pos_right hpos⟩
    · exact Or.inr rfl
  rcases hshape with ⟨h, w, hs, hpos⟩ | hrefused
  · cases ht : a.type.isInteger with
    | false => exact ⟨_, ofNdArray_of_not_isInteger hs hpos ht, rfl⟩
    | true =>
        obtain ⟨g, hg⟩ := ArrayLike.exists_isGrid hsound hx ht hs hpos
        exact absurd ((ArrayLike.isGrid_iff_of_isInteger hx ht).mpr hg) (hno g)
  · exact ⟨_, hrefused, rfl⟩

/-! ## What comes of a value -/

theorem ofArray_of_toNdArray {x : ArrayLike} (h : x.toNdArray = .ok a) :
    ofArray classes x = ofNdArray classes a := by
  rw [ofArray, h]
  rfl

theorem ofArray_of_no_grid {x : ArrayLike} (hsound : x.IsSound) (hno : ∀ g, ¬x.IsGrid g) :
    ∃ e, ofArray classes x = .error e ∧ e.kind = .value := by
  cases hx : x.toNdArray with
  | error e =>
      refine ⟨e, ?_, ArrayLike.kind_of_toNdArray hx⟩
      rw [ofArray, hx]
      rfl
  | ok a =>
      rw [ofArray_of_toNdArray hx]
      exact ofNdArray_of_no_grid hsound hx hno

theorem ofArray_of_inside {x : ArrayLike} (hclasses : classes.length ≤ indexBound)
    (hg : x.IsGrid g) (hin : ∀ i ∈ g.cells, IsIndex classes.length i) :
    ∃ m, ofArray classes x = .ok m ∧ m.classes = classes ∧ m.cells.map Int.ofNat = g := by
  obtain ⟨a, ha, -⟩ := ArrayLike.exists_toNdArray hg
  -- indices are small, so 64 bits hold them
  have hword : ∀ i ∈ g.cells, -0x8000000000000000 ≤ i ∧ i < 0x8000000000000000 := by
    intro i hi
    have := hin i hi
    unfold IsIndex at this
    have hbound : indexBound = 0x80000000 := rfl
    omega
  have ht := ArrayLike.isInteger_of_isGrid ha hg (Or.inl hword)
  rw [ofArray_of_toNdArray ha]
  exact ofNdArray_inside ((ArrayLike.isGrid_iff_of_isInteger ha ht).mp hg) hclasses hin

theorem ofArray_of_outside {x : ArrayLike} (hg : x.IsGrid g)
    (hout : ∃ i ∈ g.cells, ¬IsIndex classes.length i) :
    ∃ a i col row, x.toNdArray = .ok a ∧
      g.IsFirst (fun i => ¬IsIndex classes.length i) col row i ∧
      ofArray classes x = .error (if a.type.isInteger then .classOutside i row col classes.length
        else .maskSort a.type.name) := by
  obtain ⟨a, ha, hshape⟩ := ArrayLike.exists_toNdArray hg
  obtain ⟨i, place, hfirst, hisFirst⟩ := exists_firstOutside hout
  refine ⟨a, i, _, _, ha, hisFirst, (ofArray_of_toNdArray ha).trans ?_⟩
  cases ht : a.type.isInteger with
  | true => exact ofNdArray_outside ((ArrayLike.isGrid_iff_of_isInteger ha ht).mp hg) hfirst
  | false => exact ofNdArray_of_not_isInteger hshape hg.pos ht

/-- A value is a grid of indices, or a grid with a number in it that is no index, or no grid. -/
theorem isGrid_cases (x : ArrayLike) (n : Nat) :
    (∃ g, x.IsGrid g ∧ ∀ i ∈ g.cells, IsIndex n i) ∨
      (∃ g, x.IsGrid g ∧ ∃ i ∈ g.cells, ¬IsIndex n i) ∨ ∀ g, ¬x.IsGrid g := by
  by_cases hgrid : ∃ g, x.IsGrid g
  · obtain ⟨g, hg⟩ := hgrid
    by_cases hout : ∃ i ∈ g.cells, ¬IsIndex n i
    · exact Or.inr (Or.inl ⟨g, hg, hout⟩)
    · refine Or.inl ⟨g, hg, fun i hi => Classical.byContradiction fun h => hout ⟨i, hi, h⟩⟩
  · exact Or.inr (Or.inr fun g hg => hgrid ⟨g, hg⟩)

theorem kind_of_ofArray {x : ArrayLike} (hclasses : classes.length ≤ indexBound)
    (hsound : x.IsSound) {e : Failure} (he : ofArray classes x = .error e) : e.kind = .value := by
  rcases isGrid_cases x classes.length with ⟨g, hg, hin⟩ | ⟨g, hg, hout⟩ | hno
  · obtain ⟨m, hm, -⟩ := ofArray_of_inside hclasses hg hin
    rw [hm] at he
    cases he
  · obtain ⟨a, i, col, row, -, -, herr⟩ := ofArray_of_outside hg hout
    rw [herr] at he
    cases he
    cases a.type.isInteger <;> rfl
  · obtain ⟨e', he', hkind⟩ := ofArray_of_no_grid hsound hno
    rw [he'] at he
    cases he
    exact hkind

theorem isGrid_of_ofArray {x : ArrayLike} (hclasses : classes.length ≤ indexBound)
    (hsound : x.IsSound) {m : Mask} (hm : ofArray classes x = .ok m) :
    m.classes = classes ∧ x.IsGrid (m.cells.map Int.ofNat) ∧
      ∀ i ∈ (m.cells.map Int.ofNat).cells, IsIndex classes.length i := by
  rcases isGrid_cases x classes.length with ⟨g, hg, hin⟩ | ⟨g, hg, hout⟩ | hno
  · obtain ⟨m', hm', hnames, rfl⟩ := ofArray_of_inside hclasses hg hin
    rw [hm] at hm'
    cases hm'
    exact ⟨hnames, hg, hin⟩
  · obtain ⟨a, i, col, row, -, -, herr⟩ := ofArray_of_outside hg hout
    rw [hm] at herr
    cases herr
  · obtain ⟨e, he, -⟩ := ofArray_of_no_grid hsound hno
    rw [hm] at he
    cases he

/-- **Exactly the grids of indices are masks.** For values of every kind, and at most as many names
as 32 bits with a sign can count: a mask is made exactly of a grid of whole numbers that are all
indices of the names, and it keeps the names and the numbers; of anything else comes a failure about
a value. A grid with numbers that are no indices is refused with the first of them, row by row, if
its array is one of whole numbers. That is so for an array, and for a nested list if 64 bits with a
sign hold all its numbers, or only 64 bits without one do. Otherwise the refusal names the element
type. -/
theorem ofArray_valid (hclasses : classes.length ≤ indexBound) {x : ArrayLike}
    (hsound : x.IsSound) :
    ((∃ m, ofArray classes x = .ok m) ↔
      ∃ g, x.IsGrid g ∧ ∀ i ∈ g.cells, IsIndex classes.length i) ∧
    (∀ m, ofArray classes x = .ok m → m.classes = classes ∧ x.IsGrid (m.cells.map Int.ofNat) ∧
      ∀ c ∈ m.cells.cells, c < classes.length ∧ c < indexBound) ∧
    (∀ e, ofArray classes x = .error e → e.kind = .value) ∧
    ∀ g, x.IsGrid g → (∃ i ∈ g.cells, ¬IsIndex classes.length i) →
      ∃ a i col row, x.toNdArray = .ok a ∧
        g.IsFirst (fun i => ¬IsIndex classes.length i) col row i ∧
        ofArray classes x = .error (if a.type.isInteger then .classOutside i row col classes.length
          else .maskSort a.type.name) ∧
        ((∃ b, x = .array b) ∨
            (∀ i ∈ g.cells, -0x8000000000000000 ≤ i ∧ i < 0x8000000000000000) ∨
            (∀ i ∈ g.cells, 0x8000000000000000 ≤ i ∧ i < 0x10000000000000000) →
          a.type.isInteger = true) := by
  refine ⟨⟨?_, ?_⟩, ?_, fun e he => kind_of_ofArray hclasses hsound he, ?_⟩
  · rintro ⟨m, hm⟩
    obtain ⟨-, hg, hin⟩ := isGrid_of_ofArray hclasses hsound hm
    exact ⟨_, hg, hin⟩
  · rintro ⟨g, hg, hin⟩
    obtain ⟨m, hm, -⟩ := ofArray_of_inside hclasses hg hin
    exact ⟨m, hm⟩
  · intro m hm
    obtain ⟨hnames, hg, -⟩ := isGrid_of_ofArray hclasses hsound hm
    exact ⟨hnames, hg, fun c hc => ⟨hnames ▸ m.inRange c hc, m.fits c hc⟩⟩
  · intro g hg hout
    obtain ⟨a, i, col, row, ha, hfirst, herr⟩ := ofArray_of_outside hg hout
    refine ⟨a, i, col, row, ha, hfirst, herr, ?_⟩
    -- an array has the type it has; for a nested list the numbers decide
    rintro (⟨b, rfl⟩ | hsigned | hwide)
    · cases ha
      exact (ArrayLike.isGrid_array_iff.mp hg).2.1
    · exact ArrayLike.isInteger_of_isGrid ha hg (Or.inl hsigned)
    · exact ArrayLike.isInteger_of_isGrid ha hg (Or.inr hwide)

/-- A grid with a truth value in it, and with two numbers that are no indices of three names. -/
def strayGrid : Grid Int := ⟨2, 2, #[0, 1, 7, -1], rfl⟩

def strayRows : List (List Datum) := [[.int 0, .bool true], [.int 7, .int (-1)]]

theorem isGrid_strayRows : (ArrayLike.nested (.list (strayRows.map .list))).IsGrid strayGrid :=
  .nested ⟨by decide, by decide⟩ rfl ⟨_, List.mem_cons_self, 0, List.mem_cons_self⟩

theorem ofArray_valid_stray :
    ["background", "person", "car"].length ≤ indexBound ∧
      (ArrayLike.nested (.list (strayRows.map .list))).IsSound ∧
      ∃ i col row, strayGrid.IsFirst (fun i => ¬IsIndex 3 i) col row i ∧
        ofArray ["background", "person", "car"] (.nested (.list (strayRows.map .list)))
          = .error (.classOutside i row col 3) := by
  have hclasses : ["background", "person", "car"].length ≤ indexBound := by decide
  have hout : ∃ i ∈ strayGrid.cells, ¬IsIndex ["background", "person", "car"].length i :=
    ⟨7, by simp [strayGrid], by unfold IsIndex; decide⟩
  obtain ⟨a, i, col, row, -, hfirst, herr, hinteger⟩ :=
    (ofArray_valid hclasses (x := .nested (.list (strayRows.map .list))) trivial).2.2.2 strayGrid
      isGrid_strayRows hout
  rw [hinteger (Or.inr (Or.inl (by decide)))] at herr
  exact ⟨hclasses, trivial, i, col, row, hfirst, herr⟩

/-- A grid whose number no type of 64 bits holds. -/
def vastGrid : Grid Int := ⟨1, 1, #[0x10000000000000000], rfl⟩

def vastRows : List (List Datum) := [[.int 0x10000000000000000]]

/-- **A grid can be refused without a place**: where no type of 64 bits holds the numbers, not every
grid whose only fault is a number that is no index is refused with the first one. -/
theorem not_forall_classOutside : ¬∀ (classes : List String) (x : ArrayLike) (g : Grid Int),
    classes.length ≤ indexBound → x.IsSound → x.IsGrid g →
      ∀ i col row, g.IsFirst (fun i => ¬IsIndex classes.length i) col row i →
        ofArray classes x = .error (.classOutside i row col classes.length) := by
  intro h
  have hgrid : (ArrayLike.nested (.list (vastRows.map .list))).IsGrid vastGrid :=
    .nested ⟨by decide, by decide⟩ rfl ⟨_, List.mem_cons_self, _, List.mem_cons_self⟩
  have hfirst : vastGrid.IsFirst (fun i => ¬IsIndex 3 i) 0 0 0x10000000000000000 := by
    refine ⟨rfl, by unfold IsIndex; decide, fun x y c hplace _ => ?_⟩
    omega
  have hrefused : ofArray ["background", "person", "car"] (.nested (.list (vastRows.map .list)))
      = .error (.maskSort "object") := rfl
  have hplace := h ["background", "person", "car"] (.nested (.list (vastRows.map .list))) vastGrid
    (by decide) trivial hgrid _ _ _ hfirst
  rw [hrefused] at hplace
  cases hplace

end Mask

end Perception
