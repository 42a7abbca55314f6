import Perception.Dataset.Order
import Perception.NdArray.Tensor

set_option autoImplicit false

/-! # Datasets in memory

A dataset has samples with labels, and gives them in batches (`Batch`). Of a dataset in memory both
are arrays whose first extents agree (`ArrayDataset.make`). Batches stack samples along the first
extent, which may fail where samples differ in shape.
-/

namespace Perception

/-- The part of a dataset that is asked for. -/
inductive Usage
  | train
  | test
  | validation
  deriving DecidableEq, Repr

namespace Usage

def all : List Usage := [train, test, validation]

def name : Usage → String
  | train => "TRAIN"
  | test => "TEST"
  | validation => "VALIDATION"

def value : Usage → String
  | train => "train"
  | test => "test"
  | validation => "validation"

def directory : Usage → String
  | train => "train"
  | test => "test"
  | validation => "val"

def ofName (s : String) : Outcome Usage :=
  match all.find? fun u => u.name = s with
  | some u => .ok u
  | none => .error (.plain .key)

def ofValue (d : Datum) : Outcome Usage :=
  match all.find? fun u => Datum.sameKey d (.text u.value) with
  | some u => .ok u
  | none => .error (.plain .value)

end Usage

/-- Samples and their labels, stacked. -/
structure Batch where
  data : NdArray
  labels : NdArray

namespace Batch

def size (b : Batch) : Nat := b.data.shape.headD 0

end Batch

namespace NdArray

def row (a : NdArray) (i : Nat) : NdArray :=
  let rest := a.shape.tail
  let size := rest.foldl (· * ·) 1
  ⟨a.type, rest, a.elements.extract (i * size) (i * size + size)⟩

/-- Arrays of one shape as the rows of an array. -/
def stack (rows : List NdArray) : Outcome NdArray :=
  match rows with
  | [] => .error (.plain .index)
  | r :: rs =>
      if rs.all fun s => s.shape = r.shape then
        .ok ⟨r.type, rows.length :: r.shape, (rows.flatMap fun s => s.elements.toList).toArray⟩
      else .error (.plain .runtime)

end NdArray

/-- Samples and labels in memory. -/
structure ArrayDataset where
  data : NdArray
  labels : NdArray

namespace ArrayDataset

/-- The first extent of an array; a lone number has none. -/
def firstExtent (a : NdArray) : Outcome Nat :=
  match a.shape with
  | n :: _ => .ok n
  | [] => .error (.plain .index)

def make (data labels : ArrayLike) : Outcome ArrayDataset := do
  let d ← NdArray.asTensor data
  let l ← NdArray.asTensor labels
  let n ← firstExtent d
  let m ← firstExtent l
  if n ≠ m then throw (.sampleCount n m)
  return ⟨d, l⟩

def size (d : ArrayDataset) : Nat := d.data.shape.headD 0

def batch (d : ArrayDataset) (indices : List Nat) : Outcome Batch := do
  return ⟨← NdArray.stack (indices.map d.data.row), ← NdArray.stack (indices.map d.labels.row)⟩

end ArrayDataset

/-- Datasets that give no batches are none: there is nothing to make one of. -/
def makeAbstractDataset : Outcome Unit := .error (.plain .type)

end Perception
