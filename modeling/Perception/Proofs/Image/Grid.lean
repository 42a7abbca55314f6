import Perception.Image.Grid

set_option autoImplicit false

/-! # Cells of grids

Grids are equal when size and cells are (`Grid.ext`). The rows of a grid, one after the other, are
its cells (`Grid.flatten_rows`), and what `map` and `zipWith` do is said by their cells.
-/

namespace Perception.Grid

variable {α β γ : Type}

theorem ext {g h : Grid α} (hw : g.width = h.width) (hh : g.height = h.height)
    (hc : g.cells = h.cells) : g = h := by
  cases g
  cases h
  cases hw
  cases hh
  cases hc
  rfl

theorem size_of_ofArray? {width height : Nat} {cells : Array α} {g : Grid α}
    (h : ofArray? width height cells = some g) : g.width = width ∧ g.height = height := by
  unfold ofArray? at h
  split at h
  · cases h
    exact ⟨rfl, rfl⟩
  · cases h

/-! ## Rows -/

theorem length_rows (g : Grid α) : g.rows.length = g.height := by
  simp [rows]

/-- The part of a list that starts with the `y`-th run of `w` items. -/
theorem flatten_runs (xs : List α) (w h : Nat) :
    ((List.range h).map fun y => (xs.drop (y * w)).take w).flatten = xs.take (h * w) := by
  induction h with
  | zero => simp
  | succ h ih =>
      rw [List.range_succ, List.map_append, List.flatten_append, ih, Nat.succ_mul, List.take_add]
      simp

theorem rows_eq (g : Grid α) :
    g.rows = (List.range g.height).map fun y => (g.cells.toList.drop (y * g.width)).take g.width := by
  apply List.map_congr_left
  intro y _
  rw [Array.toList_extract, List.extract_eq_take_drop, Nat.add_sub_cancel_left]

/-- **The rows of a grid, one after the other, are its cells.** -/
theorem flatten_rows (g : Grid α) : g.rows.flatten = g.cells.toList := by
  rw [rows_eq, flatten_runs, Nat.mul_comm, ← g.size_eq, ← Array.length_toList, List.take_length]

theorem length_of_mem_rows {g : Grid α} {row : List α} (h : row ∈ g.rows) :
    row.length = g.width := by
  rw [rows_eq, List.mem_map] at h
  obtain ⟨y, hy, rfl⟩ := h
  rw [List.mem_range] at hy
  have hsize : g.cells.toList.length = g.width * g.height := by
    rw [Array.length_toList, g.size_eq]
  have hy' : (y + 1) * g.width ≤ g.height * g.width := Nat.mul_le_mul_right _ hy
  rw [Nat.succ_mul] at hy'
  rw [List.length_take, List.length_drop, hsize, Nat.mul_comm g.width g.height]
  omega

/-! ## Cell by cell -/

theorem get?_map (f : α → β) (g : Grid α) (x y : Nat) : (g.map f).get? x y = (g.get? x y).map f := by
  unfold get?
  by_cases hplace : x < g.width ∧ y < g.height
  · have hplace' : x < (g.map f).width ∧ y < (g.map f).height := hplace
    rw [if_pos hplace, if_pos hplace']
    exact Array.getElem?_map
  · have hplace' : ¬(x < (g.map f).width ∧ y < (g.map f).height) := hplace
    rw [if_neg hplace, if_neg hplace', Option.map_none]

/-- What two grids have at a place, combined. -/
theorem get?_zipWith {f : α → β → γ} {a : Grid α} {b : Grid β} {h : a.size = b.size} {x y : Nat}
    {p : α} {q : β} (hp : a.get? x y = some p) (hq : b.get? x y = some q) :
    (zipWith f a b h).get? x y = some (f p q) := by
  have hwidth : a.width = b.width := congrArg Prod.fst h
  unfold get? at hp hq ⊢
  by_cases hplace : x < a.width ∧ y < a.height
  · have hplace' : x < (zipWith f a b h).width ∧ y < (zipWith f a b h).height := hplace
    rw [if_pos hplace] at hp
    rw [if_pos hplace']
    split at hq
    · rw [← hwidth] at hq
      show (Array.zipWith f a.cells b.cells)[y * a.width + x]? = some (f p q)
      rw [Array.getElem?_zipWith, hp, hq]
    · cases hq
  · rw [if_neg hplace] at hp
    cases hp

/-- What a combined grid has at a place depends on what the two grids have there. -/
theorem get?_zipWith_eq (f : α → β → γ) (a : Grid α) (b : Grid β) (h : a.size = b.size)
    (x y : Nat) :
    (zipWith f a b h).get? x y = (a.get? x y).bind fun p => (b.get? x y).map (f p) := by
  have hwidth : a.width = b.width := congrArg Prod.fst h
  have hheight : a.height = b.height := congrArg Prod.snd h
  unfold get?
  by_cases hplace : x < a.width ∧ y < a.height
  · have hplace' : x < (zipWith f a b h).width ∧ y < (zipWith f a b h).height := hplace
    have hplace'' : x < b.width ∧ y < b.height := by
      rw [← hwidth, ← hheight]
      exact hplace
    rw [if_pos hplace, if_pos hplace', if_pos hplace'', ← hwidth]
    show (Array.zipWith f a.cells b.cells)[y * a.width + x]? = _
    rw [Array.getElem?_zipWith]
    cases a.cells[y * a.width + x]? with
    | none => rfl
    | some p => cases b.cells[y * a.width + x]? <;> rfl
  · have hplace' : ¬(x < (zipWith f a b h).width ∧ y < (zipWith f a b h).height) := hplace
    rw [if_neg hplace, if_neg hplace', Option.bind_none]

/-- Grids of one size have cells at the same places. -/
theorem get?_cases {a : Grid α} {b : Grid β} (h : a.size = b.size) (x y : Nat) :
    (a.get? x y = none ∧ b.get? x y = none) ∨
      ∃ p q, a.get? x y = some p ∧ b.get? x y = some q := by
  have hwidth : a.width = b.width := congrArg Prod.fst h
  have hheight : a.height = b.height := congrArg Prod.snd h
  have hcells : a.cells.size = b.cells.size := by
    rw [a.size_eq, b.size_eq, hwidth, hheight]
  unfold get?
  rw [hwidth, hheight]
  by_cases hplace : x < b.width ∧ y < b.height
  · rw [if_pos hplace, if_pos hplace]
    by_cases hindex : y * b.width + x < b.cells.size
    · have hindex' : y * b.width + x < a.cells.size := hcells ▸ hindex
      exact Or.inr ⟨_, _, Array.getElem?_eq_getElem hindex', Array.getElem?_eq_getElem hindex⟩
    · have hindex' : ¬y * b.width + x < a.cells.size := hcells ▸ hindex
      exact Or.inl ⟨getElem?_neg _ _ hindex', getElem?_neg _ _ hindex⟩
  · rw [if_neg hplace, if_neg hplace]
    exact Or.inl ⟨rfl, rfl⟩

/-- Where one of two grids of one size has a cell, so has the other. -/
theorem exists_get? {a : Grid α} {b : Grid β} (h : a.size = b.size) {x y : Nat} {p : α}
    (hp : a.get? x y = some p) : ∃ q, b.get? x y = some q := by
  rcases get?_cases h x y with ⟨hnone, -⟩ | ⟨-, q, -, hq⟩
  · rw [hp] at hnone
    cases hnone
  · exact ⟨q, hq⟩

/-- Where one of them has none, the other has none. -/
theorem get?_eq_none {a : Grid α} {b : Grid β} (h : a.size = b.size) {x y : Nat}
    (ha : a.get? x y = none) : b.get? x y = none := by
  rcases get?_cases h x y with ⟨-, hb⟩ | ⟨p, -, hp, -⟩
  · exact hb
  · rw [ha] at hp
    cases hp

theorem lt_of_get? {g : Grid α} {x y : Nat} {c : α} (h : g.get? x y = some c) :
    x < g.width ∧ y < g.height := by
  unfold get? at h
  split at h
  · assumption
  · cases h

/-- Beyond the end of its rows a grid has no cells. -/
theorem get?_width (g : Grid α) (y : Nat) : g.get? g.width y = none :=
  if_neg fun h => Nat.lt_irrefl _ h.1

theorem mem_of_get? {g : Grid α} {x y : Nat} {c : α} (h : g.get? x y = some c) : c ∈ g.cells := by
  unfold get? at h
  split at h
  · exact Array.mem_of_getElem? h
  · cases h

/-- The cell with a given index is in the column and the row that the width divides it into. -/
theorem get?_of_getElem? {g : Grid α} {k : Nat} {c : α} (h : g.cells[k]? = some c) :
    g.get? (k % g.width) (k / g.width) = some c := by
  obtain ⟨hk, -⟩ := Array.getElem?_eq_some_iff.mp h
  have hbound : k < g.width * g.height := g.size_eq ▸ hk
  have hpos : 0 < g.width := Nat.pos_of_mul_pos_right (Nat.zero_lt_of_lt hbound)
  rw [get?, if_pos ⟨Nat.mod_lt k hpos, Nat.div_lt_of_lt_mul hbound⟩, Nat.div_add_mod']
  exact h

/-- **Grids are equal if they have the same at every place.** -/
theorem ext_get? {g h : Grid α} (hs : g.size = h.size) (hc : ∀ x y, g.get? x y = h.get? x y) :
    g = h := by
  have hwidth : g.width = h.width := congrArg Prod.fst hs
  have hheight : g.height = h.height := congrArg Prod.snd hs
  refine ext hwidth hheight (Array.ext ?_ fun i hi hi' => ?_)
  · rw [g.size_eq, h.size_eq, hwidth, hheight]
  · have hg := get?_of_getElem? (Array.getElem?_eq_getElem hi)
    have hh := get?_of_getElem? (Array.getElem?_eq_getElem hi')
    rw [hc, hwidth, hh] at hg
    exact (Option.some.inj hg).symm

/-- The cells of a grid that is made place by place. -/
theorem get?_ofFn (width height : Nat) (f : Nat → Nat → α) {x y : Nat}
    (h : x < width ∧ y < height) : (ofFn width height f).get? x y = some (f x y) := by
  have hrows : (y + 1) * width ≤ height * width := Nat.mul_le_mul_right _ h.2
  rw [Nat.succ_mul, Nat.mul_comm height] at hrows
  have hindex : y * width + x < width * height := by omega
  have hplace : (y * width + x) % width = x ∧ (y * width + x) / width = y := by
    constructor
    · exact Nat.mul_add_mod_of_lt h.1
    · rw [Nat.mul_comm y, Nat.mul_add_div (Nat.zero_lt_of_lt h.1), Nat.div_eq_of_lt h.1,
        Nat.add_zero]
  show (if x < width ∧ y < height then (Array.ofFn _)[y * width + x]? else none) = _
  rw [if_pos h, Array.getElem?_ofFn, dif_pos hindex, hplace.1, hplace.2]

theorem map_id_of_forall {f : α → α} {a : Grid α} (h : ∀ x ∈ a.cells, f x = x) : a.map f = a := by
  refine ext rfl rfl ?_
  show a.cells.map f = a.cells
  rw [Array.map_congr_left h, Array.map_id']

theorem map_map (f : α → β) (g : β → γ) (a : Grid α) : (a.map f).map g = a.map fun x => g (f x) := by
  refine ext rfl rfl ?_
  show (a.cells.map f).map g = a.cells.map fun x => g (f x)
  rw [Array.map_map]
  rfl

theorem map_zipWith {δ : Type} (f : α → β → γ) (g : γ → δ) (a : Grid α) (b : Grid β)
    (h : a.size = b.size) :
    (zipWith f a b h).map g = zipWith (fun x y => g (f x y)) a b h := by
  refine ext rfl rfl ?_
  show (Array.zipWith f a.cells b.cells).map g = Array.zipWith _ a.cells b.cells
  rw [Array.map_zipWith]

theorem mem_zipWith {f : α → β → γ} {a : Grid α} {b : Grid β} {h : a.size = b.size} {z : γ}
    (hz : z ∈ (zipWith f a b h).cells) : ∃ x ∈ a.cells, ∃ y ∈ b.cells, f x y = z := by
  obtain ⟨i, hi, hz⟩ := Array.mem_iff_getElem.mp hz
  have hi' : i < (Array.zipWith f a.cells b.cells).size := hi
  rw [Array.size_zipWith] at hi'
  refine ⟨_, Array.getElem_mem (by omega : i < a.cells.size), _,
    Array.getElem_mem (by omega : i < b.cells.size), ?_⟩
  rw [← hz]
  exact (Array.getElem_zipWith hi).symm

theorem zipWith_congr {f g : α → β → γ} {a a' : Grid α} {b b' : Grid β} {h : a.size = b.size}
    {h' : a'.size = b'.size} (ha : a = a') (hb : b = b')
    (hfg : ∀ x ∈ a.cells, ∀ y ∈ b.cells, f x y = g x y) :
    zipWith f a b h = zipWith g a' b' h' := by
  subst ha hb
  refine ext rfl rfl ?_
  show Array.zipWith f a.cells b.cells = Array.zipWith g a.cells b.cells
  apply Array.ext
  · rw [Array.size_zipWith, Array.size_zipWith]
  · intro i hi _
    rw [Array.getElem_zipWith, Array.getElem_zipWith]
    rw [Array.size_zipWith] at hi
    exact hfg _ (Array.getElem_mem (by omega)) _ (Array.getElem_mem (by omega))

theorem zipWith_map {δ : Type} (f : β → γ → δ) (g : α → β) (a : Grid α) (b : Grid γ)
    (h : (a.map g).size = b.size) :
    zipWith f (a.map g) b h = zipWith (fun x y => f (g x) y) a b h := by
  refine ext rfl rfl ?_
  show Array.zipWith f (a.cells.map g) b.cells = Array.zipWith _ a.cells b.cells
  rw [Array.zipWith_map_left]

/-- Combining with the same grid twice. -/
theorem zipWith_zipWith (f g : α → β → β) (a : Grid α) (b : Grid β) (h : a.size = b.size)
    (h' : a.size = (zipWith f a b h).size) :
    zipWith g a (zipWith f a b h) h' = zipWith (fun x y => g x (f x y)) a b h := by
  refine ext rfl rfl ?_
  show Array.zipWith g a.cells (Array.zipWith f a.cells b.cells) = Array.zipWith _ a.cells b.cells
  apply Array.ext
  · simp only [Array.size_zipWith]
    omega
  · intro i hi _
    simp only [Array.getElem_zipWith]

theorem zipWith_right {f : α → β → β} {a : Grid α} {b : Grid β} {h : a.size = b.size}
    (hf : ∀ x ∈ a.cells, ∀ y ∈ b.cells, f x y = y) : zipWith f a b h = b := by
  have hw : a.width = b.width := congrArg Prod.fst h
  have hh : a.height = b.height := congrArg Prod.snd h
  have hsize : a.cells.size = b.cells.size := by
    rw [a.size_eq, b.size_eq, hw, hh]
  refine ext hw hh ?_
  show Array.zipWith f a.cells b.cells = b.cells
  apply Array.ext
  · rw [Array.size_zipWith]
    omega
  · intro i _ hi
    rw [Array.getElem_zipWith]
    exact hf _ (Array.getElem_mem (by omega)) _ (Array.getElem_mem hi)

end Perception.Grid
