import Perception.Datum.Number
import Perception.Number.Power
import Perception.Number.Rounding

set_option autoImplicit false

/-! # Arrays of any rank

An array has an element type, a shape and its elements in row-major order. Arrays come from nested
lists, whose shape and element type are found by looking at all leaves (`NdArray.ofNested`), or are
made with a chosen element type (`NdArray.ofNestedAs`). A nested list whose rows differ in shape has
no array.
-/

namespace Perception

inductive ElementType
  | bool
  | signed (bits : Nat)
  | unsigned (bits : Nat)
  | real (bits : Nat)
  /-- Numbers with an imaginary part, which is zero here. -/
  | complex (bits : Nat)
  | text (width : Nat)
  | anything
  deriving DecidableEq, Repr

namespace ElementType

def name : ElementType → String
  | bool => "bool"
  | signed n => s!"int{n}"
  | unsigned n => s!"uint{n}"
  | real n => s!"float{n}"
  | complex n => s!"complex{n}"
  | text n => s!"<U{n}"
  | anything => "object"

def ofName? (s : String) : Option ElementType :=
  ([bool, signed 8, signed 16, signed 32, signed 64, unsigned 8, unsigned 16, unsigned 32,
    unsigned 64, real 16, real 32, real 64, complex 64, complex 128,
    anything] : List ElementType).find? fun t => t.name = s

def isInteger : ElementType → Bool
  | signed _ => true
  | unsigned _ => true
  | _ => false

def least : ElementType → Int
  | signed n => -(Number.powerOfTwo (n - 1) : Int)
  | _ => 0

def greatest : ElementType → Int
  | signed n => (Number.powerOfTwo (n - 1) : Int) - 1
  | unsigned n => (Number.powerOfTwo n : Int) - 1
  | _ => 0

/-- The number of the type that agrees with `i` in its low bits. -/
def wrap (t : ElementType) (i : Int) : Int :=
  match t with
  | signed n => Int.bmod i (Number.powerOfTwo n)
  | unsigned n => i % (Number.powerOfTwo n : Int)
  | _ => i

/-- The length of the longest written form of an element. -/
def writtenWidth : ElementType → Nat
  | bool => 5
  | signed _ => 21
  | unsigned _ => 20
  | text n => n
  | _ => 32

/-- The type that elements of two types have together. Truth values become numbers, whole numbers
with a sign and without one become fractions, and beside texts all are written out. -/
def join (a b : ElementType) : ElementType :=
  if a = b then a
  else match a, b with
    | anything, _ | _, anything => anything
    | text _, _ | _, text _ => text (max a.writtenWidth b.writtenWidth)
    | bool, t | t, bool => t
    | _, _ => real 64

end ElementType

/-- An array: its element type, its shape and its elements, row by row. -/
structure NdArray where
  type : ElementType
  shape : List Nat
  elements : Array Datum

namespace NdArray

def rank (a : NdArray) : Nat := a.shape.length

/-- How deep lists may be nested. -/
def maxRank : Nat := 64

mutual

/-- The shape of a nested list, `none` if two items of one list differ in shape. -/
def shape? : Datum → Option (List Nat)
  | .list [] => some [0]
  | .list (x :: xs) => do
      let s ← shape? x
      if allHaveShape s xs then some ((xs.length + 1) :: s) else none
  | _ => some []

def allHaveShape (s : List Nat) : List Datum → Bool
  | [] => true
  | x :: xs => shape? x == some s && allHaveShape s xs

end

mutual

def leaves : Datum → List Datum
  | .list xs => leavesOf xs
  | d => [d]

def leavesOf : List Datum → List Datum
  | [] => []
  | x :: xs => leaves x ++ leavesOf xs

end

/-- The element type of a leaf by itself. Whole numbers have 64 bits, with a sign if they fit. -/
def scalarType : Datum → ElementType
  | .bool _ => .bool
  | .int i =>
      if -0x8000000000000000 ≤ i ∧ i < 0x8000000000000000 then .signed 64
      else if 0x8000000000000000 ≤ i ∧ i < 0x10000000000000000 then .unsigned 64
      else .anything
  | .float _ => .real 64
  | .text s => .text (max 1 s.length)
  | _ => .anything

/-- The element type of leaves together, joined one after another. -/
def typeOf : List Datum → ElementType
  | [] => .real 64
  | d :: ds => ds.foldl (fun t d => t.join (scalarType d)) (scalarType d)

/-- Brings a leaf to the type that was found. -/
def settle (t : ElementType) : Datum → Datum
  | .bool b => if t.isInteger then .int (if b then 1 else 0)
      else match t with
        | .real _ => .float (if b then 1.0 else 0.0)
        | _ => .bool b
  | .int i => match t with
      | .real _ => .float (Number.ofInt i)
      | _ => .int i
  | d => d

/-- The array of a nested list, with the element type that its leaves call for. -/
def ofNested (d : Datum) : Outcome NdArray :=
  match shape? d with
  | none => .error (.plain .value)
  | some s =>
      if maxRank < s.length then .error (.plain .value)
      else
        let ls := leaves d
        let t := typeOf ls
        .ok ⟨t, s, (ls.map (settle t)).toArray⟩

/-- `m · 2 ^ q` to the nearest number of eleven significant bits, infinite from 65520 on. -/
def toHalf (x : Float) : Float :=
  match Number.parts x with
  | .finite negative m q =>
      if m = 0 then x
      else
        let top : Int := (m.log2 : Int) + q
        let quantum : Int := max (top - 10) (-24)
        let n := match q - quantum with
          | .ofNat k => m * Number.powerOfTwo k
          | .negSucc k => Number.roundHalfEven m (Number.powerOfTwo (k + 1))
        let units := n * Number.powerOfTwo (quantum + 24).toNat
        let y := if top > 16 ∨ units ≥ 65520 * 0x1000000 then 1.0 / 0.0
          else Float.ofNat units / 16777216.0
        if negative then -y else y
  | _ => x

/-- A number rounded to a precision of so many bits of storage. -/
def roundReal (bits : Nat) (x : Float) : Float :=
  if bits = 32 then x.toFloat32.toFloat else if bits = 16 then toHalf x else x

/-- Can a value that is no whole number be cut to this one before it wraps? There are words of 64
bits for that, which have no sign where the type is wide and has none itself. -/
def isWord (t : ElementType) (i : Int) : Bool :=
  let wide := ElementType.unsigned 64
  let word := if t = wide ∨ t = .unsigned 32 then wide else .signed 64
  word.least ≤ i && i ≤ word.greatest

/-- Puts a value into an array of a given type: whole numbers must fit, fractions are cut and then
wrap, texts are read as numbers, and nothing at all is no number among fractions. A list is no
element of these types. -/
def convert (t : ElementType) (d : Datum) : Outcome Datum :=
  match t, d with
  | .bool, _ => .ok (.bool d.isTruthy)
  | .anything, _ => .ok d
  | .text _, _ => .ok d
  | _, .list _ => .error (.plain .value)
  | .real n, _ => fraction n
  | .complex n, _ => fraction (n / 2)
  | _, .int i => if t.least ≤ i ∧ i ≤ t.greatest then .ok d else .error (.plain .overflow)
  | _, _ => do
      let i ← d.toInt
      if isWord t i then .ok (.int (t.wrap i)) else .error (.plain .overflow)
where
  /-- A value as a fraction of so many bits. -/
  fraction (bits : Nat) : Outcome Datum :=
    match d with
    | .null => .ok (.float (0.0 / 0.0))
    | _ => d.toFloat.map fun x => .float (roundReal bits x)

def sharedStart : List Nat → List Nat → List Nat
  | m :: ms, n :: ns => if m = n then m :: sharedStart ms ns else []
  | _, _ => []

mutual

/-- The shape down to where the items of a nested list differ. -/
def outerShape : Datum → List Nat
  | .list [] => [0]
  | .list (x :: xs) => (xs.length + 1) :: outerShapeOf (outerShape x) xs
  | _ => []

/-- What the shapes of items share with a given one. -/
def outerShapeOf (s : List Nat) : List Datum → List Nat
  | [] => s
  | x :: xs => outerShapeOf (sharedStart s (outerShape x)) xs

end

def itemsAt : Nat → Datum → List Datum
  | depth + 1, .list xs => xs.flatMap (itemsAt depth)
  | _, d => [d]

/-- The array of a nested list with a chosen element type. Where the elements may be anything, lists
that differ in shape are elements themselves. -/
def ofNestedAs (t : ElementType) (d : Datum) : Outcome NdArray :=
  match shape? d with
  | none =>
      let s := outerShape d
      if t = .anything then .ok ⟨t, s, (itemsAt s.length d).toArray⟩ else .error (.plain .value)
  | some s =>
      if maxRank < s.length then .error (.plain .value)
      else do
        let es ← (leaves d).mapM (convert t)
        .ok ⟨t, s, es.toArray⟩

def reshape (s : List Nat) (a : NdArray) : Outcome NdArray :=
  if s.foldl (· * ·) 1 = a.elements.size then .ok { a with shape := s }
  else .error (.plain .value)

/-- The whole part of a fraction as 64 bits hold it; what they cannot hold is the least number. -/
def wholeOf (x : Float) : Int :=
  match Number.truncate? x with
  | some i =>
      if -0x8000000000000000 ≤ i ∧ i < 0x8000000000000000 then i else -0x8000000000000000
  | none => -0x8000000000000000

/-- Brings an element of an array of one type to another type. Numbers wrap; an element that may be
anything is put in as if it came by itself, and so is the whole number that a text writes. -/
def castElement (source target : ElementType) (d : Datum) : Outcome Datum :=
  if !target.isInteger then convert target d
  else match source, d with
    | .anything, d => convert target d
    | .text _, d => d.toInt >>= fun i => convert target (.int i)
    | _, .float x => .ok (.int (target.wrap (wholeOf x)))
    | _, d => d.toInt.map fun i => .int (target.wrap i)

/-- The array with its elements brought to another type. -/
def cast (t : ElementType) (a : NdArray) : Outcome NdArray := do
  let es ← a.elements.toList.mapM (castElement a.type t)
  .ok ⟨t, a.shape, es.toArray⟩

/-- Elements of a shape as nested lists. -/
def nest : List Nat → List Datum → Datum
  | [], es => es.headD .null
  | n :: s, es =>
      let width := s.foldl (· * ·) 1
      .list ((List.range n).map fun i => nest s ((es.drop (i * width)).take width))

def toDatum (a : NdArray) : Datum := nest a.shape a.elements.toList

end NdArray

/-- An array as a caller hands it over: a plain value, whose array is still to be found, or an array
with a type of its own. -/
inductive ArrayLike
  | nested (d : Datum)
  | array (a : NdArray)

namespace ArrayLike

/-- The array of a value, with its own or the found type. -/
def toNdArray : ArrayLike → Outcome NdArray
  | nested d => NdArray.ofNested d
  | array a => .ok a

def toNdArrayAs (t : ElementType) : ArrayLike → Outcome NdArray
  | nested d => NdArray.ofNestedAs t d
  | array a => a.cast t

end ArrayLike

end Perception
