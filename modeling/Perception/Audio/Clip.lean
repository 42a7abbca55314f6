import Perception.NdArray.Reals

set_option autoImplicit false

/-! # Audio clips

A clip is a row of samples with the rate at which they follow each other and the number of channels
of its source. Several channels become one by taking the mean of the samples that sound together
(`Clip.mixed`).
-/

namespace Perception.Audio

/-- Samples of one channel, how many of them there are in a second, and how many channels the source
had. A rate or a number of channels that is unknown is zero. -/
structure Clip where
  samples : Array Float32
  rate : Float
  channels : Int

def sumInOrder (xs : List Float32) : Float32 := xs.foldl (· + ·) 0.0

def lanes : Nat := 8

/-- Adds numbers to lanes in turn, as long as there is one for each. -/
def addInLanes (sums : List Float32) : Nat → List Float32 → List Float32 × List Float32
  | 0, xs => (sums, xs)
  | fuel + 1, xs =>
      if xs.length < lanes then (sums, xs)
      else addInLanes (List.zipWith (· + ·) sums (xs.take lanes)) fuel (xs.drop lanes)

def pairSums : List Float32 → List Float32
  | a :: b :: rest => (a + b) :: pairSums rest
  | xs => xs

/-- The sum of numbers that lie side by side: in lanes, if there are enough of them, then the lanes
pair by pair, then what is left over. -/
def sumInRow (xs : List Float32) : Float32 :=
  if xs.length < lanes then sumInOrder xs
  else
    let (sums, rest) := addInLanes (xs.take lanes) xs.length (xs.drop lanes)
    0.0 + rest.foldl (· + ·) ((pairSums (pairSums (pairSums sums))).headD 0.0)

def meanOf (sum : List Float32 → Float32) (xs : List Float32) : Float32 :=
  sum xs / Float32.ofNat xs.length

namespace Clip

def size (c : Clip) : Nat := c.samples.size

/-- Seconds from start to end; zero where the rate is unknown. -/
def duration (c : Clip) : Float :=
  if c.rate ≤ 0.0 then 0.0 else Float.ofNat c.size / c.rate

def describe (c : Clip) : String :=
  s!"Audio(samples={c.size}, sample_rate={Number.general c.rate}, "
    ++ s!"channels={Number.intText c.channels})"

def make (samples : Array Float32) (rate channels : Datum) : Outcome Clip := do
  let rate ← rate.toFloat
  let channels ← channels.toInt
  return ⟨samples, rate, channels⟩

def ofArray (data : ArrayLike) (rate channels : Datum) : Outcome Clip := do
  let a ← data.toNdArrayAs (.real 32)
  match a.shape with
  | [_] => make (Reals.ofNdArray a).values rate channels
  | s => throw (.audioShape s)

/-- The samples of each channel, one channel after another, as one. Where each channel has a single
sample, these lie side by side. -/
def mixed (channels samples : Nat) (values : Array Float32) : Array Float32 :=
  let sum := if samples = 1 then sumInRow else sumInOrder
  ((List.range samples).map fun i =>
    meanOf sum ((List.range channels).map fun c => values.getD (c * samples + i) 0.0)).toArray

/-- The clip of a row of numbers, or of one row for each channel. -/
def ofChannels (data : ArrayLike) (rate : Datum) : Outcome Clip := do
  let a ← data.toNdArrayAs (.real 32)
  let values := (Reals.ofNdArray a).values
  match a.shape with
  | [_] => make values rate (1 : Int)
  | [channels, samples] => make (mixed channels samples values) rate (channels : Int)
  | s => throw (.channelShape s)

end Clip

end Perception.Audio
