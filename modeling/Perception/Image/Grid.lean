set_option autoImplicit false

/-! # Grids

A grid holds one cell for each place of a rectangle, row by row. Grids of the same size are combined
cell by cell.
-/

namespace Perception

/-- Cells of a rectangle in row-major order. -/
structure Grid (α : Type) where
  width : Nat
  height : Nat
  cells : Array α
  size_eq : cells.size = width * height

namespace Grid

variable {α β γ : Type}

def size (g : Grid α) : Nat × Nat := (g.width, g.height)

def get? (g : Grid α) (x y : Nat) : Option α :=
  if x < g.width ∧ y < g.height then g.cells[y * g.width + x]? else none

def map (f : α → β) (g : Grid α) : Grid β :=
  ⟨g.width, g.height, g.cells.map f, by simp [g.size_eq]⟩

def zipWith (f : α → β → γ) (a : Grid α) (b : Grid β) (h : a.size = b.size) : Grid γ :=
  ⟨a.width, a.height, Array.zipWith f a.cells b.cells, by
    simp only [size, Prod.mk.injEq] at h
    simp [a.size_eq, b.size_eq, h.1, h.2]⟩

def replicate (width height : Nat) (c : α) : Grid α :=
  ⟨width, height, Array.replicate (width * height) c, by simp⟩

/-- A grid from its cells, `none` if their number is not that of the places. -/
def ofArray? (width height : Nat) (cells : Array α) : Option (Grid α) :=
  if h : cells.size = width * height then some ⟨width, height, cells, h⟩ else none

def ofFn (width height : Nat) (f : Nat → Nat → α) : Grid α :=
  ⟨width, height, Array.ofFn (n := width * height) fun i => f (i.val % width) (i.val / width),
    by simp⟩

def rows (g : Grid α) : List (List α) :=
  (List.range g.height).map fun y =>
    (g.cells.extract (y * g.width) (y * g.width + g.width)).toList

@[simp] theorem size_map (f : α → β) (g : Grid α) : (g.map f).size = g.size := rfl

@[simp] theorem size_zipWith (f : α → β → γ) (a : Grid α) (b : Grid β) (h : a.size = b.size) :
    (zipWith f a b h).size = a.size := rfl

end Grid

end Perception
