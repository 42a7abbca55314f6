import Perception.Failure
import Perception.Random.Generator

set_option autoImplicit false

/-! # Streams of randomness

There are three generators, one for each sort of use: general choices, arrays (from which palettes
are drawn) and tensors (from which orders of samples are drawn). One seed sets all three
(`Streams.seed`); they take seeds of different ranges, so a seed may set some of them and then fail.
`Generator.permutation` and its companions turn words into what is asked for.
-/

namespace Perception.Random

namespace Generator

/-- A byte: the low bits of the next word. -/
def byte (g : Generator) : UInt8 × Generator :=
  let (w, g) := g.next
  (w.toUInt8, g)

/-- A multiple of `2 ^ -24` below one. -/
def fraction (g : Generator) : Float × Generator :=
  let (w, g) := g.next
  (Float.ofNat (w.toNat % 0x1000000) / 16777216.0, g)

/-- Swaps place `i` with a random later one, for all places from `i` on that have a later one.
`left` is the number of places from `i` on. -/
def shuffleFrom : Nat → Nat → Array Nat → Generator → Array Nat × Generator
  | 0, _, a, g => (a, g)
  | 1, _, a, g => (a, g)
  | left + 2, i, a, g =>
      let (w, g) := g.next
      let j := i + w.toNat % (left + 2)
      let x := a.getD i 0
      let y := a.getD j 0
      shuffleFrom (left + 1) (i + 1) ((a.setIfInBounds i y).setIfInBounds j x) g

/-- The numbers below `n` in random order. -/
def permutation (n : Nat) (g : Generator) : List Nat × Generator :=
  let (a, g) := shuffleFrom n 0 (Array.range n) g
  (a.toList, g)

/-- The generator of a whole number whose low 32 bits are the seed. -/
def ofLowWord (seed : Int) : Generator := ofSeed (UInt32.ofNat (seed % 0x100000000).toNat)

end Generator

structure Streams where
  choices : Generator
  arrays : Generator
  tensors : Generator

namespace Streams

def ofSeed (seed : Nat) : Streams :=
  ⟨.ofInt seed, .ofLowWord seed, .ofLowWord seed⟩

/-- The seed that a loose value names: whole numbers and truth values can be seeds. -/
def seedOf (d : Datum) : Outcome Int :=
  match d with
  | .int i => .ok i
  | .bool b => .ok (if b then 1 else 0)
  | _ => .error (.plain .type)

def isArraySeed (i : Int) : Bool := 0 ≤ i && i < 0x100000000

def isTensorSeed (i : Int) : Bool := -0x8000000000000000 ≤ i && i < 0x10000000000000000

/-- Sets all generators, the one for choices first. Where a seed does not fit, the generators before
are set all the same. -/
def seed (i : Int) (s : Streams) : Streams × Outcome Unit :=
  let s := { s with choices := .ofInt i }
  if !isArraySeed i then (s, .error (.plain .value))
  else
    let s := { s with arrays := .ofLowWord i }
    if !isTensorSeed i then (s, .error (.plain .value))
    else ({ s with tensors := .ofLowWord i }, .ok ())

/-- The seed of a worker: each has one of its own, whatever the base. -/
def workerSeed (base : Int) (worker : Int) : Int := (base + worker * 9973) % 0xFFFFFFFF

def seedWorker (base worker : Int) (s : Streams) : Streams :=
  let i := workerSeed base worker
  { s with choices := .ofInt i, arrays := .ofLowWord i }

theorem isArraySeed_workerSeed (base worker : Int) :
    isArraySeed (workerSeed base worker) = true := by
  have h : 0 ≤ workerSeed base worker ∧ workerSeed base worker < 0x100000000 := by
    unfold workerSeed
    omega
  simpa [isArraySeed] using h

end Streams

end Perception.Random
