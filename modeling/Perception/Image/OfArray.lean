import Perception.Image.Basic
import Perception.NdArray.Basic

set_option autoImplicit false

/-! # Images from arrays

An image is made of packed colours (`Image.ofPacked`), or of an array of samples whose channels come
either first or last (`Image.ofSamples`). Which of the two it is shows from the shape alone:
channels come first if the first extent is a possible number of channels and the last is not.
-/

namespace Perception.Image

def ofPacked (packed : ArrayLike) (width height : Int) : Outcome Image := do
  let a ← packed.toNdArrayAs (.unsigned 32)
  if (a.elements.size : Int) ≠ width * height then
    throw (.pixelCount (width * height) a.elements.size)
  if width < 0 ∨ height < 0 then throw (.plain .value)
  let cells := a.elements.map fun d => Rgba.ofArgb (d.int?.getD 0)
  match Grid.ofArray? width.toNat height.toNat cells with
  | some g => return ofGrid .rgba g
  | none => throw (.pixelCount (width * height) a.elements.size)

def isChannelCount (n : Nat) : Bool := n = 1 || n = 3 || n = 4

def channelsFirst : List Nat → Bool
  | [c, _, w] => isChannelCount c && !isChannelCount w
  | _ => false

/-- A fraction of full brightness as a byte, computed in the precision of its type: scaled, a half
added, cut off at both ends. -/
def byteOfFraction (bits : Nat) (x : Float) : UInt8 :=
  let y : Float :=
    if bits = 64 then x * 255.0 + 0.5
    else if bits = 32 then (x.toFloat32 * 255.0 + 0.5).toFloat
    else
      let scaled := NdArray.toHalf (x.toFloat32 * 255.0).toFloat
      NdArray.toHalf (scaled.toFloat32 + 0.5).toFloat
  if y < 0.0 then 0 else if 255.0 < y then 255
  else UInt8.ofNat (NdArray.wholeOf y % 256).toNat

/-- A sample as a byte: fractions are of full brightness, whole numbers wrap. -/
def byteOfSample (t : ElementType) (d : Datum) : Outcome UInt8 :=
  match t, d with
  | .real bits, .float x => .ok (byteOfFraction bits x)
  | _, d =>
      match NdArray.castElement t (.unsigned 8) d with
      | .ok (.int i) => .ok (UInt8.ofNat i.toNat)
      | .ok _ => .error (.plain .type)
      | .error e => .error e

def modeOfChannels? : Nat → Option Mode
  | 1 => some .grey
  | 2 => some .greyAlpha
  | 3 => some .rgb
  | 4 => some .rgba
  | _ => none

def pixelOfChannels (m : Mode) (channel : Nat → UInt8) : Rgba :=
  match m with
  | .greyAlpha => ⟨channel 0, channel 0, channel 0, channel 1⟩
  | _ => ⟨channel 0, channel 1, channel 2, channel 3⟩

/-- The image of `width` by `height` pixels with `channels` samples each, where `place x y c` is the
index of a sample. -/
def ofBytesAt (width height channels : Nat) (bytes : Array UInt8) (place : Nat → Nat → Nat → Nat) :
    Outcome Image :=
  match modeOfChannels? channels with
  | some m =>
      .ok (ofGrid m (Grid.ofFn width height fun x y =>
        pixelOfChannels m fun c => bytes.getD (place x y c) 0))
  | none => .error (.plain .type)

/-- The image of an array of samples: two-dimensional for one channel, else with the channels first
or last. -/
def ofSamples (samples : ArrayLike) : Outcome Image := do
  let a ← samples.toNdArray
  let bytesOf : Outcome (Array UInt8) := do
    let bs ← a.elements.toList.mapM (byteOfSample a.type)
    return bs.toArray
  match a.shape with
  | [h, w] => do
      let bs ← bytesOf
      ofBytesAt w h 1 bs fun x y _ => y * w + x
  | [d, h, w] =>
      if channelsFirst a.shape then do
        let bs ← bytesOf
        ofBytesAt w h d bs fun x y c => (c * h + y) * w + x
      else if w = 1 then do
        let bs ← bytesOf
        ofBytesAt h d 1 bs fun x y _ => y * h + x
      else do
        let bs ← bytesOf
        ofBytesAt h d w bs fun x y c => (y * h + x) * w + c
  | s => throw (.pictureShape s)

/-- The image of a table of colours looked up, and of the number of their channels. -/
def ofRows (width height channels : Nat) (pixels : Nat → Nat → Nat → UInt8) : Outcome Image :=
  match modeOfChannels? channels with
  | some m => .ok (ofGrid m (Grid.ofFn width height fun x y => pixelOfChannels m (pixels x y)))
  | none => .error (.plain .type)

end Perception.Image
