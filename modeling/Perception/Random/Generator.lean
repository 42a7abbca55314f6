set_option autoImplicit false

/-! # The random number generator

A Mersenne twister with 624 words of state. A generator is a value: drawing a word gives the word
and the generator that comes after, so a computation depends on the randomness it is given and on
nothing else. `Generator.take` draws several words; taking `m + n` words is taking `m` and then `n`
(`take_add`).
-/

namespace Perception.Random

def stateSize : Nat := 624

/-- The state words and the number of them that have been drawn from since they were last mixed. -/
structure Generator where
  words : Array UInt32
  used : Nat

namespace Generator

/-- One mixed word from two neighbours and the word 397 places on. -/
def mixWord (y z w : UInt32) : UInt32 :=
  let x := (y &&& 0x80000000) ||| (z &&& 0x7fffffff)
  w ^^^ (x >>> 1) ^^^ (if x &&& 1 = 0 then 0 else 0x9908b0df)

/-- Mixes all state words, each in place. -/
def mix (words : Array UInt32) : Array UInt32 :=
  (List.range stateSize).foldl
    (fun ws i =>
      ws.setIfInBounds i
        (mixWord (ws.getD i 0) (ws.getD ((i + 1) % stateSize) 0)
          (ws.getD ((i + 397) % stateSize) 0)))
    words

def temper (y : UInt32) : UInt32 :=
  let y := y ^^^ (y >>> 11)
  let y := y ^^^ ((y <<< 7) &&& 0x9d2c5680)
  let y := y ^^^ ((y <<< 15) &&& 0xefc60000)
  y ^^^ (y >>> 18)

/-- The next word and the generator after it. -/
def next (g : Generator) : UInt32 × Generator :=
  if g.used < stateSize then (temper (g.words.getD g.used 0), { g with used := g.used + 1 })
  else
    let ws := mix g.words
    (temper (ws.getD 0 0), ⟨ws, 1⟩)

/-- The next `n` words, in order, and the generator after them. -/
def take : Nat → Generator → List UInt32 × Generator
  | 0, g => ([], g)
  | n + 1, g =>
      let (w, g) := g.next
      let (ws, g) := take n g
      (w :: ws, g)

def spread (seed : UInt32) : Array UInt32 :=
  ((List.range (stateSize - 1)).foldl
    (fun (state : Array UInt32 × UInt32) i =>
      let w := (1812433253 : UInt32) * (state.2 ^^^ (state.2 >>> 30)) + UInt32.ofNat (i + 1)
      (state.1.push w, w))
    (#[seed], seed)).1

def ofSeed (seed : UInt32) : Generator := ⟨spread seed, stateSize⟩

/-- Some steps over the state while mixing in a key: `f` says how, in step `n`, word `i` follows
from itself and its predecessor. The place to go on from wraps from the end to the second word. -/
def stir (f : Nat → Nat → UInt32 → UInt32 → UInt32) :
    Nat → Nat × Array UInt32 → Nat × Array UInt32
  | 0, state => state
  | n + 1, state =>
      let (i, ws) := stir f n state
      let ws := ws.setIfInBounds i (f n i (ws.getD i 0) (ws.getD (i - 1) 0))
      if i + 1 < stateSize then (i + 1, ws)
      else (1, ws.setIfInBounds 0 (ws.getD (stateSize - 1) 0))

def ofKey (key : List UInt32) : Generator :=
  let ks := key.toArray
  let start := stir
    (fun n _ w before =>
      (w ^^^ ((before ^^^ (before >>> 30)) * 1664525)) + ks.getD (n % ks.size) 0
        + UInt32.ofNat (n % ks.size))
    (max stateSize ks.size) (1, spread 19650218)
  let final := stir
    (fun _ i w before =>
      (w ^^^ ((before ^^^ (before >>> 30)) * 1566083941)) - UInt32.ofNat i)
    (stateSize - 1) start
  ⟨final.2.setIfInBounds 0 0x80000000, stateSize⟩

/-- The 32-bit words of a number, least significant first; one word for zero. -/
def wordsOf : Nat → Nat → List UInt32
  | 0, n => [UInt32.ofNat n]
  | fuel + 1, n =>
      if n < 0x100000000 then [UInt32.ofNat n]
      else UInt32.ofNat n :: wordsOf fuel (n / 0x100000000)

/-- The generator of a whole number of any size; the sign does not count. -/
def ofInt (seed : Int) : Generator := ofKey (wordsOf (seed.natAbs.log2 / 32 + 1) seed.natAbs)

/-- Two words as one number below `2 ^ 63`, the first word on top. -/
def next63 (g : Generator) : Nat × Generator :=
  let (hi, g) := g.next
  let (lo, g) := g.next
  ((hi.toNat * 0x100000000 + lo.toNat) % 0x8000000000000000, g)

theorem take_add (m n : Nat) (g : Generator) :
    take (m + n) g =
      ((take m g).1 ++ (take n (take m g).2).1, (take n (take m g).2).2) := by
  induction m generalizing g with
  | zero => simp [take]
  | succ m ih =>
      rw [Nat.succ_add]
      simp [take, ih]

@[simp] theorem length_take (n : Nat) (g : Generator) : (take n g).1.length = n := by
  induction n generalizing g with
  | zero => rfl
  | succ n ih => simp [take, ih]

end Generator

end Perception.Random
