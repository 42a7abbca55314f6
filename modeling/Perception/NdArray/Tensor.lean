import Perception.NdArray.Basic

set_option autoImplicit false

/-! # Tensors

Arrays as learning code keeps them: fractions are of 32 bits and whole numbers of 64 unless a type
is chosen, and only numbers and truth values can be elements. The shape is read off the first items
all the way down, and every other item must agree with it.
-/

namespace Perception.NdArray

/-- How deep the lists of a tensor may be nested. -/
def maxTensorRank : Nat := 128

/-- The shape that the first items show. Texts have no bottom. -/
def firstShape : Nat → Datum → Outcome (List Nat)
  | 0, _ => .error (.plain .value)
  | fuel + 1, d =>
      match d with
      | .list [] => .ok [0]
      | .list (x :: xs) => (firstShape fuel x).map fun s => (xs.length + 1) :: s
      | .text s => if s.isEmpty then .ok [0] else .error (.plain .value)
      | _ => .ok []

def leafType (d : Datum) : Outcome ElementType :=
  match d with
  | .bool _ => .ok .bool
  | .int _ => .ok (.signed 64)
  | .float _ => .ok (.real 32)
  | .text _ => .error (.plain .type)
  | _ => .error (.plain .runtime)

def widen : ElementType → ElementType → ElementType
  | .bool, t => t
  | .real n, _ => .real n
  | _, .real n => .real n
  | s, .bool => s
  | s, _ => s

/-- The type that all leaves agree on; fractions of 32 bits where there is no leaf. -/
def tensorType (ls : List Datum) : Outcome ElementType := do
  let ts ← ls.mapM leafType
  match ts with
  | [] => .ok (.real 32)
  | t :: rest => .ok (rest.foldl widen t)

def storeReal (bits : Nat) (d : Datum) : Outcome Datum :=
  match d with
  | .int i => (Datum.int i).toFloat.map fun x => .float (roundReal bits x)
  | .float x => .ok (.float (roundReal bits x))
  | .bool b => .ok (.float (if b then 1.0 else 0.0))
  | _ => .error (.plain .type)

/-- Puts a leaf into a tensor. Numbers too small for an unsigned type wrap if their size fits. -/
def store (t : ElementType) (d : Datum) : Outcome Datum :=
  match t, d with
  | .bool, .float x => .ok (.bool (x != 0.0))
  | .bool, .int i => .ok (.bool (i != 0))
  | .bool, .bool b => .ok (.bool b)
  | .real n, d => storeReal n d
  | .complex n, d => storeReal (n / 2) d
  | .signed n, .int i =>
      if (ElementType.signed n).least ≤ i ∧ i ≤ (ElementType.signed n).greatest then .ok d
      else .error (.plain .runtime)
  | .unsigned n, .int i =>
      if -(ElementType.unsigned n).greatest ≤ i ∧ i ≤ (ElementType.unsigned n).greatest then
        .ok (.int ((ElementType.unsigned n).wrap i))
      else .error (.plain .runtime)
  | _, .bool b => .ok (.int (if b then 1 else 0))
  | _, _ => .error (.plain .type)

/-- The leaves of a value whose shape must be `s`. -/
def leavesOfShape : List Nat → Datum → Outcome (List Datum)
  | [], .list _ => .error (.plain .type)
  | [], d => .ok [d]
  | n :: s, .list xs =>
      if xs.length = n then (xs.mapM (leavesOfShape s)).map List.flatten
      else .error (.plain .value)
  | _ :: _, _ => .error (.plain .type)

/-- The tensor of a nested list, with a chosen element type or the one its leaves agree on. -/
def tensorOf (t? : Option ElementType) (d : Datum) : Outcome NdArray := do
  if let .text _ := d then throw (.plain .type)
  let s ← firstShape (maxTensorRank + 1) d
  let t ← match t? with
    | some t => pure t
    | none => tensorType (leaves d)
  let ls ← leavesOfShape s d
  let es ← ls.mapM (store t)
  return ⟨t, s, es.toArray⟩

/-- The tensor of what a caller hands over; an array keeps its type if a tensor can have it. -/
def asTensor : ArrayLike → Outcome NdArray
  | .nested d => tensorOf none d
  | .array a =>
      match a.type with
      | .anything => .error (.plain .type)
      | .text _ => .error (.plain .type)
      | _ => .ok a

end Perception.NdArray
