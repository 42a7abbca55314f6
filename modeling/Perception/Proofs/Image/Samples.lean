import Perception.Image.OfArray
import Perception.Proofs.Image.Drawing
import Perception.Proofs.Image.Grid
import Perception.Proofs.Outcome

set_option autoImplicit false

/-! # Pictures made of samples

An array of bytes with three extents holds a picture in one of two layouts, the channels of a pixel
last or first. With the channels last it is always read as the picture (`Image.ofSamples_last`).
With the channels first it is so too, unless the width is a possible number of channels
(`Image.ofSamples_first`): then it has the shape of an array with the channels last, and is read as
that. Both are in `Image.ofSamples_layouts`; `Image.ofSamples_ambiguous` is an array that holds two
pictures.
-/

namespace Perception

structure NdArray.HoldsBytes (a : NdArray) (rows columns depth : Nat)
    (sample : Nat → Nat → Nat → UInt8) : Prop where
  type : a.type = .unsigned 8
  shape : a.shape = [rows, columns, depth]
  bytes : ∀ d ∈ a.elements, ∃ b : UInt8, d = .int b.toNat
  sample : ∀ i j k, i < rows → j < columns → k < depth →
    a.elements[(i * columns + j) * depth + k]? = some (.int (sample i j k).toNat)

def NdArray.ofByteList (shape : List Nat) (bytes : List UInt8) : NdArray :=
  ⟨.unsigned 8, shape, (bytes.map fun b => Datum.int b.toNat).toArray⟩

theorem NdArray.holdsBytes_ofByteList {rows columns depth : Nat} {bytes : List UInt8}
    {sample : Nat → Nat → Nat → UInt8}
    (h : ∀ i < rows, ∀ j < columns, ∀ k < depth,
      bytes[(i * columns + j) * depth + k]? = some (sample i j k)) :
    (ofByteList [rows, columns, depth] bytes).HoldsBytes rows columns depth sample := by
  refine ⟨rfl, rfl, fun d hd => ?_, fun i j k hi hj hk => ?_⟩
  · obtain ⟨b, -, rfl⟩ := List.mem_map.mp (List.mem_toArray.mp hd)
    exact ⟨b, rfl⟩
  · rw [NdArray.ofByteList, List.getElem?_toArray, List.getElem?_map, h i hi j hj k hk]
    rfl

namespace Image

open NdArray (ofByteList holdsBytes_ofByteList)

variable {width height channels : Nat} {picture : Nat → Nat → Nat → UInt8}

/-- The image shows a picture: each of its pixels stores the samples of its place, and nothing
else, and there is no key. `picture y x c` is the sample of channel `c` in column `x` of row `y`. -/
structure Shows (im : Image) (width height channels : Nat) (picture : Nat → Nat → Nat → UInt8) :
    Prop where
  mode : channels = 1 ∧ im.mode = .grey ∨ channels = 3 ∧ im.mode = .rgb ∨
    channels = 4 ∧ im.mode = .rgba
  size : im.size = (width, height)
  pixel : ∀ x y, x < width → y < height →
    ∃ p, im.pixels.get? x y = some p ∧ im.mode.stored p = (List.range channels).map (picture y x)
  key : im.key = none

/-! ## Bytes -/

def byteOf (d : Datum) : UInt8 := UInt8.ofNat (d.int?.getD 0).toNat

theorem byteOf_int (b : UInt8) : byteOf (.int b.toNat) = b := UInt8.ofNat_toNat

theorem byteOfSample_byte (b : UInt8) :
    byteOfSample (.unsigned 8) (.int b.toNat) = .ok (byteOf (.int b.toNat)) := by
  have hwrap : ((b.toNat : Int) % 256) = b.toNat := by
    have := b.toNat_lt
    omega
  show Except.ok (UInt8.ofNat ((b.toNat : Int) % 256).toNat) = _
  rw [hwrap]
  rfl

theorem bytes_ok {a : NdArray} (ht : a.type = .unsigned 8)
    (hb : ∀ d ∈ a.elements, ∃ b : UInt8, d = .int b.toNat) :
    a.elements.toList.mapM (byteOfSample a.type) = .ok (a.elements.toList.map byteOf) := by
  rw [ht]
  refine Outcome.mapM_ok fun d hd => ?_
  obtain ⟨b, rfl⟩ := hb d (Array.mem_toList_iff.mp hd)
  exact byteOfSample_byte b

/-- The bytes of an array by their places. -/
theorem getD_bytes {a : NdArray} {rows columns depth i j k : Nat}
    {sample : Nat → Nat → Nat → UInt8} (ha : a.HoldsBytes rows columns depth sample)
    (hi : i < rows) (hj : j < columns) (hk : k < depth) :
    (a.elements.toList.map byteOf).toArray.getD ((i * columns + j) * depth + k) 0
      = sample i j k := by
  have hsample := ha.sample i j k hi hj hk
  rw [← Array.getElem?_toList] at hsample
  rw [Array.getD_eq_getD_getElem?, List.getElem?_toArray, List.getElem?_map, hsample]
  exact byteOf_int _

/-! ## Pictures -/

/-- The stored bytes of a pixel say all about it. -/
theorem eq_of_stored {m : Mode} {p q : Rgba} (hm : m = .grey ∨ m = .rgb ∨ m = .rgba)
    (hp : m.canon p = p) (hq : m.canon q = q) (h : m.stored p = m.stored q) : p = q := by
  rw [← hp, ← hq]
  rcases hm with rfl | rfl | rfl <;>
    simp only [Mode.stored, List.cons.injEq, and_true] at h <;>
    simp only [Mode.canon, h]
  -- all four bytes are stored
  cases p
  cases q
  simp only [Rgba.mk.injEq]
  exact h

theorem Shows.modeOfChannels? {im : Image} (h : im.Shows width height channels picture) :
    modeOfChannels? channels = some im.mode := by
  rcases h.mode with ⟨rfl, hm⟩ | ⟨rfl, hm⟩ | ⟨rfl, hm⟩ <;> rw [hm] <;> rfl

/-- **A picture that is shown** says all about the image. -/
theorem Shows.eq {im im' : Image} (h : im.Shows width height channels picture)
    (h' : im'.Shows width height channels picture) : im = im' := by
  have hmode : im.mode = im'.mode :=
    Option.some.inj (h.modeOfChannels?.symm.trans h'.modeOfChannels?)
  have hplain : im.mode = .grey ∨ im.mode = .rgb ∨ im.mode = .rgba :=
    h.mode.imp And.right (Or.imp And.right And.right)
  have hsize : im.size = im'.size := h.size.trans h'.size.symm
  refine ext hmode (Grid.ext_get? hsize fun x y => ?_) (h.key.trans h'.key.symm)
  by_cases hplace : x < width ∧ y < height
  · obtain ⟨p, hp, hstored⟩ := h.pixel x y hplace.1 hplace.2
    obtain ⟨q, hq, hstored'⟩ := h'.pixel x y hplace.1 hplace.2
    have hcanon : im.mode.canon q = q := by
      rw [hmode]
      exact im'.canonical q (Grid.mem_of_get? hq)
    rw [← hmode] at hstored'
    have heq : p = q := eq_of_stored hplain (im.canonical p (Grid.mem_of_get? hp)) hcanon
      (hstored.trans hstored'.symm)
    rw [hp, hq, heq]
  · have hwidth : im.pixels.width = width := congrArg Prod.fst h.size
    have hheight : im.pixels.height = height := congrArg Prod.snd h.size
    have hnone : im.pixels.get? x y = none := by
      rw [Grid.get?, hwidth, hheight, if_neg hplace]
    rw [hnone, Grid.get?_eq_none hsize hnone]

theorem isChannelCount_cases (h : isChannelCount channels = true) :
    channels = 1 ∨ channels = 3 ∨ channels = 4 := by
  simp only [isChannelCount, Bool.or_eq_true, decide_eq_true_eq] at h
  omega

/-- The mode of so many channels stores the samples of all of them. -/
theorem exists_mode (h : isChannelCount channels = true) :
    ∃ m, modeOfChannels? channels = some m ∧
      (channels = 1 ∧ m = .grey ∨ channels = 3 ∧ m = .rgb ∨ channels = 4 ∧ m = .rgba) ∧
      ∀ sample : Nat → UInt8,
        m.stored (m.canon (pixelOfChannels m sample)) = (List.range channels).map sample := by
  rcases isChannelCount_cases h with rfl | rfl | rfl
  · exact ⟨.grey, rfl, by simp, fun _ => rfl⟩
  · exact ⟨.rgb, rfl, by simp, fun _ => rfl⟩
  · exact ⟨.rgba, rfl, by simp, fun _ => rfl⟩

/-- **Bytes by their places** make the image that shows them. -/
theorem ofBytesAt_shows (hchannels : isChannelCount channels = true) {bytes : Array UInt8}
    {place : Nat → Nat → Nat → Nat}
    (hplace : ∀ x y c, x < width → y < height → c < channels →
      bytes.getD (place x y c) 0 = picture y x c) :
    ∃ im, ofBytesAt width height channels bytes place = .ok im ∧
      im.Shows width height channels picture := by
  obtain ⟨m, hm, hmode, hstored⟩ := exists_mode hchannels
  let samples (x y c : Nat) : UInt8 := bytes.getD (place x y c) 0
  have hmake : ofBytesAt width height channels bytes place
      = .ok (ofGrid m (Grid.ofFn width height fun x y => pixelOfChannels m (samples x y))) := by
    rw [ofBytesAt, hm]
  refine ⟨_, hmake, hmode, rfl, fun x y hx hy =>
    ⟨m.canon (pixelOfChannels m (samples x y)), ?_, ?_⟩, rfl⟩
  · rw [ofGrid, Grid.get?_map, Grid.get?_ofFn _ _ _ ⟨hx, hy⟩]
    rfl
  · refine (hstored (samples x y)).trans (List.map_congr_left fun c hc => ?_)
    exact hplace x y c hx hy (List.mem_range.mp hc)

/-! ## The two layouts -/

variable {a : NdArray}

/-- An array of bytes in three dimensions is read by the layout that its shape shows. -/
theorem ofSamples_bytes {rows columns depth : Nat} {sample : Nat → Nat → Nat → UInt8}
    (ha : a.HoldsBytes rows columns depth sample) :
    ofSamples (.array a)
      = if channelsFirst [rows, columns, depth] = true then
          ofBytesAt depth columns rows (a.elements.toList.map byteOf).toArray fun x y c =>
            (c * columns + y) * depth + x
        else if depth = 1 then
          ofBytesAt columns rows 1 (a.elements.toList.map byteOf).toArray fun x y _ =>
            y * columns + x
        else
          ofBytesAt columns rows depth (a.elements.toList.map byteOf).toArray fun x y c =>
            (y * columns + x) * depth + c := by
  simp only [ofSamples, ArrayLike.toNdArray, bind, Except.bind, ha.shape, bytes_ok ha.type ha.bytes]
  rfl

/-- **Channels last.** -/
theorem ofSamples_last (hchannels : isChannelCount channels = true)
    (ha : a.HoldsBytes height width channels picture) :
    ∃ im, ofSamples (.array a) = .ok im ∧ im.Shows width height channels picture := by
  have hlast : channelsFirst [height, width, channels] = false := by
    rw [channelsFirst, hchannels, Bool.not_true, Bool.and_false]
  have hread : ofSamples (.array a)
      = if channels = 1 then
          ofBytesAt width height 1 (a.elements.toList.map byteOf).toArray fun x y _ => y * width + x
        else
          ofBytesAt width height channels (a.elements.toList.map byteOf).toArray fun x y c =>
            (y * width + x) * channels + c := by
    rw [ofSamples_bytes ha, hlast, if_neg Bool.false_ne_true]
  rw [hread]
  split
  · next hone =>
      subst hone
      refine ofBytesAt_shows hchannels fun x y c hx hy hc => ?_
      have hbyte := getD_bytes ha hy hx hc
      rwa [Nat.mul_one, Nat.lt_one_iff.mp hc, Nat.add_zero, ← Nat.lt_one_iff.mp hc] at hbyte
  · exact ofBytesAt_shows hchannels fun x y c hx hy hc => getD_bytes ha hy hx hc

/-- **Channels first**, where the width is no number of channels. -/
theorem ofSamples_first (hchannels : isChannelCount channels = true)
    (hwidth : isChannelCount width = false)
    (ha : a.HoldsBytes channels height width fun c y x => picture y x c) :
    ∃ im, ofSamples (.array a) = .ok im ∧ im.Shows width height channels picture := by
  have hfirst : channelsFirst [channels, height, width] = true := by
    rw [channelsFirst, hchannels, hwidth]
    rfl
  have hread : ofSamples (.array a)
      = ofBytesAt width height channels (a.elements.toList.map byteOf).toArray fun x y c =>
          (c * height + y) * width + x := by
    rw [ofSamples_bytes ha, hfirst, if_pos rfl]
  rw [hread]
  exact ofBytesAt_shows hchannels fun x y c hx hy hc => getD_bytes ha hc hy hx

/-- **A picture is read alike in both layouts**, unless its width is a possible number of channels.
Then the array with the channels first has the shape of one with the channels last, and is read as
the picture that it holds so. -/
theorem ofSamples_layouts (hchannels : isChannelCount channels = true)
    (ha : a.HoldsBytes height width channels picture) :
    ∃ im, ofSamples (.array a) = .ok im ∧ im.Shows width height channels picture ∧
      ∀ b : NdArray, b.HoldsBytes channels height width (fun c y x => picture y x c) →
        (isChannelCount width = false ∨ (channels = 1 ∧ height = 1 ∧ width = 1) →
          ofSamples (.array b) = .ok im) ∧
        (isChannelCount width = true → ∃ other, ofSamples (.array b) = .ok other ∧
          other.Shows height channels width fun c y x => picture y x c) := by
  obtain ⟨im, hread, hshows⟩ := ofSamples_last hchannels ha
  refine ⟨im, hread, hshows, fun b hb => ⟨fun hwidth => ?_, fun hwidth => ?_⟩⟩
  · rcases hwidth with hwidth | ⟨rfl, rfl, rfl⟩
    · obtain ⟨im', hread', hshows'⟩ := ofSamples_first hchannels hwidth hb
      rw [hread', hshows'.eq hshows]
    · -- a lone sample is a picture in either layout
      obtain ⟨im', hread', hshows'⟩ := ofSamples_last hchannels hb
      have hlone : im'.Shows 1 1 1 picture := by
        refine ⟨hshows'.mode, hshows'.size, fun x y hx hy => ?_, hshows'.key⟩
        obtain ⟨p, hp, hstored⟩ := hshows'.pixel x y hx hy
        refine ⟨p, hp, hstored.trans ?_⟩
        rw [Nat.lt_one_iff.mp hx, Nat.lt_one_iff.mp hy]
        rfl
      rw [hread', hlone.eq hshows]
  · exact ofSamples_last hwidth hb

def twoPixels (_ x c : Nat) : UInt8 := UInt8.ofNat (10 * (x + 1) + c)

theorem ofSamples_layouts_two :
    isChannelCount 3 = true ∧
      (ofByteList [1, 2, 3] [10, 11, 12, 20, 21, 22]).HoldsBytes 1 2 3 twoPixels ∧
      ∃ im, ofSamples (.array (ofByteList [1, 2, 3] [10, 11, 12, 20, 21, 22])) = .ok im ∧
        im.Shows 2 1 3 twoPixels ∧
        ofSamples (.array (ofByteList [3, 1, 2] [10, 20, 11, 21, 12, 22])) = .ok im := by
  have hlast : (ofByteList [1, 2, 3] [10, 11, 12, 20, 21, 22]).HoldsBytes 1 2 3 twoPixels :=
    holdsBytes_ofByteList (by decide)
  have hfirst : (ofByteList [3, 1, 2] [10, 20, 11, 21, 12, 22]).HoldsBytes 3 1 2
      fun c y x => twoPixels y x c :=
    holdsBytes_ofByteList (by decide)
  obtain ⟨im, hread, hshows, halike⟩ := ofSamples_layouts (by decide) hlast
  exact ⟨by decide, hlast, im, hread, hshows, (halike _ hfirst).1 (Or.inl (by decide))⟩

/-- A picture of one row of four pixels with three channels, which count on from channel to
channel. -/
def fourPixels (_ x c : Nat) : UInt8 := UInt8.ofNat (c * 4 + x + 1)

/-- **A width of four** makes the same array one of three rows of one pixel with four channels. -/
theorem ofSamples_ambiguous :
    (ofByteList [1, 4, 3] [1, 5, 9, 2, 6, 10, 3, 7, 11, 4, 8, 12]).HoldsBytes 1 4 3 fourPixels ∧
      (ofByteList [3, 1, 4] [1, 2, 3, 4, 5, 6, 7, 8, 9, 10, 11, 12]).HoldsBytes 3 1 4
        (fun c y x => fourPixels y x c) ∧
      ∃ im im', ofSamples (.array (ofByteList [1, 4, 3] [1, 5, 9, 2, 6, 10, 3, 7, 11, 4, 8, 12]))
          = .ok im ∧
        ofSamples (.array (ofByteList [3, 1, 4] [1, 2, 3, 4, 5, 6, 7, 8, 9, 10, 11, 12]))
          = .ok im' ∧
        im.mode = .rgb ∧ im.size = (4, 1) ∧ im'.mode = .rgba ∧ im'.size = (1, 3) := by
  have hlast : (ofByteList [1, 4, 3] [1, 5, 9, 2, 6, 10, 3, 7, 11, 4, 8, 12]).HoldsBytes 1 4 3
      fourPixels :=
    holdsBytes_ofByteList (by decide)
  have hfirst : (ofByteList [3, 1, 4] [1, 2, 3, 4, 5, 6, 7, 8, 9, 10, 11, 12]).HoldsBytes 3 1 4
      fun c y x => fourPixels y x c :=
    holdsBytes_ofByteList (by decide)
  obtain ⟨im, hread, hshows⟩ := ofSamples_last (by decide) hlast
  obtain ⟨im', hread', hshows'⟩ := ofSamples_last (by decide) hfirst
  refine ⟨hlast, hfirst, im, im', hread, hread', ?_, hshows.size, ?_, hshows'.size⟩
  · exact (Option.some.inj hshows.modeOfChannels?).symm
  · exact (Option.some.inj hshows'.modeOfChannels?).symm

end Image

end Perception
