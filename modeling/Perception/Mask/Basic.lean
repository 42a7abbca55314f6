import Perception.Image.Grid
import Perception.Json.Printer
import Perception.Json.Reader
import Perception.NdArray.Basic

set_option autoImplicit false

/-! # Masks

A mask names a class for each pixel: a non-empty grid of indices into a list of class names, the
first of which is the background. That every index is one of the list, and that it fits in 32 bits
with a sign, is part of the type. A mask is made from an array (`Mask.ofArray`); its grid is written
as JSON (`Mask.toJson`) and read back (`Mask.ofJson`), the names travel apart.
-/

namespace Perception

/-- What a class index stays below. -/
def Mask.indexBound : Nat := 0x80000000

/-- A class index for each pixel. -/
structure Mask where
  classes : List String
  cells : Grid Nat
  nonempty : 0 < cells.width ∧ 0 < cells.height
  inRange : ∀ c ∈ cells.cells, c < classes.length
  fits : ∀ c ∈ cells.cells, c < Mask.indexBound

namespace Mask

def width (m : Mask) : Nat := m.cells.width

def height (m : Mask) : Nat := m.cells.height

def size (m : Mask) : Size := m.cells.size

/-- The mask of a grid, `none` if it is empty or an index is out of range. -/
def ofGrid? (classes : List String) (g : Grid Nat) : Option Mask :=
  if h : (0 < g.width ∧ 0 < g.height)
      ∧ (∀ c ∈ g.cells, c < classes.length) ∧ ∀ c ∈ g.cells, c < indexBound then
    some ⟨classes, g, h.1, h.2.1, h.2.2⟩
  else none

/-- The first number, with its place, that is no index of a list of length `n`. -/
def firstOutside (n : Nat) (place : Nat) : List Int → Option (Int × Nat)
  | [] => none
  | i :: is => if 0 ≤ i ∧ i < n then firstOutside n (place + 1) is else some (i, place)

/-- The mask of an array: it must be two-dimensional, have places, hold whole numbers, and these
must be indices of the classes. Only a list of more than `indexBound` names has indices that do not
fit. -/
def ofNdArray (classes : List String) (a : NdArray) : Outcome Mask :=
  match a.shape with
  | [h, w] =>
      if h * w = 0 then .error (.maskShape a.shape)
      else if !a.type.isInteger then .error (.maskSort a.type.name)
      else
        let indices := a.elements.toList.map fun d => d.int?.getD 0
        match firstOutside classes.length 0 indices with
        | some (i, place) => .error (.classOutside i (place / w) (place % w) classes.length)
        | none =>
            let g? := Grid.ofArray? w h (indices.map Int.toNat).toArray
            match g?.bind (ofGrid? classes) with
            | some m => .ok m
            | none => .error (.plain .overflow)
  | s => .error (.maskShape s)

def ofArray (classes : List String) (a : ArrayLike) : Outcome Mask := do
  ofNdArray classes (← a.toNdArray)

def toDatum (m : Mask) : Datum :=
  .list (m.cells.rows.map fun row => .list (row.map fun (c : Nat) => .int c))

def toJson (m : Mask) : String :=
  Json.compact (Datum.object [("mask", m.toDatum)]) ++ "\n"

def toBytes (m : Mask) : Bytes := Bytes.ofString m.toJson

/-- The mask that a document denotes: a record with a grid under `mask`, whatever else it has. -/
def ofDocument (classes : List String) (d : Datum) : Outcome Mask :=
  match d.find? "mask" with
  | some grid => ofArray classes (.nested grid)
  | none => .error .noMask

def ofJson (classes : List String) (text : String) : Outcome Mask :=
  match Json.parse? text.toList with
  | .ok d => ofDocument classes d
  | .error e => .error (.jsonSyntax e)

/-- The mask that bytes denote, in the encoding that their start shows. -/
def ofJsonBytes (classes : List String) (bs : Bytes) : Outcome Mask :=
  match Json.textOf? bs with
  | none => .error (.plain .undecodable)
  | some text =>
      match Json.read? text with
      | .ok d => ofDocument classes d
      | .error e => .error (.jsonSyntax e)

def beq (m n : Mask) : Bool :=
  m.classes == n.classes && m.size == n.size && m.cells.cells == n.cells.cells

instance : BEq Mask := ⟨beq⟩

def describe (m : Mask) : String :=
  s!"CategoryMask(classes={Text.quotedList m.classes}, size={m.width}x{m.height})"

end Mask

end Perception
