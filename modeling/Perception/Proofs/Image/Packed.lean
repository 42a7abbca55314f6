import Perception.Image.OfArray
import Perception.Proofs.Colour.Packed
import Perception.Proofs.NdArray.Nested
import Perception.Proofs.Outcome

set_option autoImplicit false

/-! # Images of packed colours

A list of packed colours, row by row, is the image that has the colour of each in its place, if there
are as many as places (`Image.ofPacked_length`), and no image else (`Image.ofPacked_miscount`). Both
ways of packing and unpacking, that of single colours and that of whole images, undo each other:
`Image.ofPacked_packs`.
-/

namespace Perception

open Outcome

/-- Packed colours are the words of an array as they are. -/
theorem NdArray.ofNestedAs_packed {ns : List Int} (h : ∀ n ∈ ns, Colour.IsPacked n) :
    ofNestedAs (.unsigned 32) (.list (ns.map .int))
      = .ok ⟨.unsigned 32, [ns.length], (ns.map Datum.int).toArray⟩ := by
  refine ofNestedAs_unsigned fun n hn => ?_
  obtain ⟨hlow, hhigh⟩ := h n hn
  refine ⟨hlow, ?_⟩
  show n ≤ 0x100000000 - 1
  omega

namespace Image

open Colour (IsPacked)
open NdArray (ofNestedAs_packed)

variable {ns : List Int} {width height : Nat}

/-! ## One number for each place -/

def gridOfPacked (ns : List Int) (width height : Nat) (h : ns.length = width * height) :
    Grid Rgba :=
  ⟨width, height, (ns.map Rgba.ofArgb).toArray, by rw [List.size_toArray, List.length_map, h]⟩

/-- **As many packed colours as places** are an image. -/
theorem ofPacked_length (hpacked : ∀ n ∈ ns, IsPacked n) (h : ns.length = width * height) :
    ofPacked (.nested (.list (ns.map .int))) width height
      = .ok (ofGrid .rgba (gridOfPacked ns width height h)) := by
  have hcells : (ns.map Datum.int).toArray.map (fun d => Rgba.ofArgb (d.int?.getD 0))
      = (ns.map Rgba.ofArgb).toArray := by
    rw [List.map_toArray, List.map_map]
    rfl
  have hgrid : Grid.ofArray? width height (ns.map Rgba.ofArgb).toArray
      = some (gridOfPacked ns width height h) := dif_pos _
  have hcount : ¬((ns.map Datum.int).toArray.size : Int) ≠ width * height := by
    rw [List.size_toArray, List.length_map, h, Int.natCast_mul]
    exact not_not_intro rfl
  have hsigns : ¬((width : Int) < 0 ∨ (height : Int) < 0) := by omega
  simp only [ofPacked, ArrayLike.toNdArrayAs, ofNestedAs_packed hpacked, bind, Except.bind, pure,
    Except.pure, if_neg hcount, if_neg hsigns, hcells, Int.toNat_natCast, hgrid]

/-- **Fewer or more** are none. -/
theorem ofPacked_miscount (hpacked : ∀ n ∈ ns, IsPacked n) {width height : Int}
    (h : (ns.length : Int) ≠ width * height) :
    ofPacked (.nested (.list (ns.map .int))) width height
      = .error (.pixelCount (width * height) ns.length) := by
  have hsize : (ns.map Datum.int).toArray.size = ns.length := by
    rw [List.size_toArray, List.length_map]
  simp only [ofPacked, ArrayLike.toNdArrayAs, ofNestedAs_packed hpacked, bind, Except.bind, throw,
    throwThe, MonadExceptOf.throw, hsize, if_pos h]

/-- The colour in a place is that of the number there. -/
theorem get?_gridOfPacked (h : ns.length = width * height) {x y : Nat} (hx : x < width)
    (hy : y < height) :
    ∃ n, ns[y * width + x]? = some n ∧
      (gridOfPacked ns width height h).get? x y = some (Rgba.ofArgb n) := by
  have hrows : (y + 1) * width ≤ height * width := Nat.mul_le_mul_right _ hy
  rw [Nat.succ_mul, Nat.mul_comm height, ← h] at hrows
  have hplace : y * width + x < ns.length := by omega
  refine ⟨ns[y * width + x], List.getElem?_eq_getElem hplace, ?_⟩
  have hcell : (ns.map Rgba.ofArgb).toArray[y * width + x]? = some (Rgba.ofArgb ns[y * width + x]) := by
    rw [List.getElem?_toArray, List.getElem?_map, List.getElem?_eq_getElem hplace]
    rfl
  exact (if_pos ⟨hx, hy⟩ : (gridOfPacked ns width height h).get? x y = _).trans hcell

/-! ## Packing an image -/

def packed (im : Image) : Outcome (List Int) :=
  im.pixels.rows.flatten.mapM fun c => Colour.packList c.toDatum

theorem packed_eq (im : Image) :
    im.packed = .ok (im.pixels.cells.toList.map fun c => (c.toArgb : Int)) := by
  rw [packed, Grid.flatten_rows]
  exact mapM_ok fun c _ => Colour.packList_toDatum c

/-- Packed colours are what their colours pack to. -/
theorem map_toArgb_ofArgb (hpacked : ∀ n ∈ ns, IsPacked n) :
    (ns.map Rgba.ofArgb).map (fun c => (c.toArgb : Int)) = ns := by
  rw [List.map_map]
  refine (List.map_congr_left fun n hn => ?_).trans (List.map_id ns)
  obtain ⟨hlow, hhigh⟩ := hpacked n hn
  exact (Rgba.toArgb_ofArgb n).trans (Int.emod_eq_of_lt hlow hhigh)

/-- An image in full colour comes back from its packed colours. -/
theorem exists_packed (im : Image) (hmode : im.mode = .rgba) (hsize : im.size = (width, height)) :
    ∃ ns, im.packed = .ok ns ∧ (∀ n ∈ ns, IsPacked n) ∧
      ofPacked (.nested (.list (ns.map .int))) width height = .ok im := by
  have hwidth : im.pixels.width = width := congrArg Prod.fst hsize
  have hheight : im.pixels.height = height := congrArg Prod.snd hsize
  have hpacked : ∀ n ∈ im.pixels.cells.toList.map fun c => (c.toArgb : Int), IsPacked n := by
    intro n hn
    obtain ⟨c, -, rfl⟩ := List.mem_map.mp hn
    exact Colour.isPacked_toArgb c
  have hlength : (im.pixels.cells.toList.map fun c => (c.toArgb : Int)).length = width * height := by
    rw [List.length_map, Array.length_toList, im.pixels.size_eq, hwidth, hheight]
  refine ⟨_, packed_eq im, hpacked, (ofPacked_length hpacked hlength).trans (congrArg Except.ok ?_)⟩
  have hkey : im.key = none := im.keyed (by rw [hmode]; rfl)
  refine Image.ext hmode.symm ((pixels_ofGrid_rgba _).trans ?_) hkey.symm
  refine Grid.ext hwidth.symm hheight.symm (Array.toList_inj.mp ?_)
  show (im.pixels.cells.toList.map fun c => (c.toArgb : Int)).map Rgba.ofArgb = _
  rw [List.map_map]
  exact (List.map_congr_left fun c _ => c.ofArgb_toArgb).trans (List.map_id _)

/-- **Packing and unpacking undo each other**, for single colours and for images. A colour comes back
from its packed number, and one without alpha comes back as a solid one; any whole number, unpacked
and packed again, is left with its low 32 bits. As many packed colours as an image of some size has
places are such an image, with the colour of each in its place, which packs to the same list row by
row; and every image in full colour comes back from its packed colours. A list of another length is
refused as a bad value. -/
theorem ofPacked_packs :
    (∀ r g b a : UInt8, ∃ n,
      Colour.packList (.list ([r, g, b, a].map fun v => .int v.toNat)) = .ok n ∧
        Colour.unpack (.int n) = .ok ⟨r, g, b, a⟩) ∧
    (∀ r g b : UInt8, ∃ n,
      Colour.packList (.list ([r, g, b].map fun v => .int v.toNat)) = .ok n ∧
        Colour.unpack (.int n) = .ok ⟨r, g, b, 255⟩) ∧
    (∀ n : Int, ∃ r g b a : UInt8, Colour.unpack (.int n) = .ok ⟨r, g, b, a⟩ ∧
      Colour.packList (.list ([r, g, b, a].map fun v => .int v.toNat)) = .ok (n % 0x100000000)) ∧
    ∀ width height : Nat, 0 < width → 0 < height →
      (∀ ns : List Int, (∀ n ∈ ns, IsPacked n) →
        (ns.length = width * height →
          ∃ im, ofPacked (.nested (.list (ns.map .int))) width height = .ok im ∧ im.mode = .rgba ∧
            im.size = (width, height) ∧
            (∀ x y, x < width → y < height → ∃ n c, ns[y * width + x]? = some n ∧
              Colour.unpack (.int n) = .ok c ∧ im.pixels.get? x y = some c) ∧
            im.packed = .ok ns) ∧
        (ns.length ≠ width * height →
          ∃ e, ofPacked (.nested (.list (ns.map .int))) width height = .error e ∧
            e.kind = .value)) ∧
      ∀ im : Image, im.mode = .rgba → im.size = (width, height) →
        ∃ ns, im.packed = .ok ns ∧ (∀ n ∈ ns, IsPacked n) ∧
          ofPacked (.nested (.list (ns.map .int))) width height = .ok im := by
  refine ⟨fun r g b a => ⟨_, Colour.packList_toDatum ⟨r, g, b, a⟩, ?_⟩,
    fun r g b => ⟨_, Colour.packList_solid r g b, ?_⟩,
    fun n => ⟨_, _, _, _, rfl, ?_⟩, fun width height _ _ => ⟨fun ns hpacked => ⟨fun h => ?_, fun h => ?_⟩,
      fun im hmode hsize => ?_⟩⟩
  · exact congrArg Except.ok (Rgba.ofArgb_toArgb _)
  · exact congrArg Except.ok (Rgba.ofArgb_toArgb _)
  · -- a colour packs to the low word of the number that it was unpacked from
    rw [← Rgba.toArgb_ofArgb n]
    exact Colour.packList_toDatum (Rgba.ofArgb n)
  · refine ⟨_, ofPacked_length hpacked h, rfl, rfl, fun x y hx hy => ?_, ?_⟩
    · obtain ⟨n, hn, hcell⟩ := get?_gridOfPacked h hx hy
      exact ⟨n, _, hn, rfl, (congrArg (Grid.get? · x y) (pixels_ofGrid_rgba _)).trans hcell⟩
    · rw [packed_eq, pixels_ofGrid_rgba]
      exact congrArg Except.ok (map_toArgb_ofArgb hpacked)
  · refine ⟨_, ofPacked_miscount hpacked ?_, rfl⟩
    rw [← Int.natCast_mul]
    exact fun hcount => h (Int.ofNat_inj.mp hcount)
  · exact exists_packed im hmode hsize

/-- Two half solid colours in one row. -/
theorem ofPacked_packs_two :
    (0 < 2 ∧ 0 < 1 ∧ (∀ n ∈ [0x80102030, 0x80405060], IsPacked n) ∧
      [0x80102030, 0x80405060].length = 2 * 1) ∧
    ∃ im, ofPacked (.nested (.list [.int 0x80102030, .int 0x80405060])) 2 1 = .ok im ∧
      im.size = (2, 1) ∧ im.pixels.get? 1 0 = some ⟨0x40, 0x50, 0x60, 0x80⟩ ∧
      im.packed = .ok [0x80102030, 0x80405060] := by
  have hpacked : ∀ n ∈ [(0x80102030 : Int), 0x80405060], IsPacked n := by
    unfold IsPacked
    decide
  obtain ⟨im, him, -, hsize, hpixel, hback⟩ :=
    ((ofPacked_packs.2.2.2 2 1 (by decide) (by decide)).1 [0x80102030, 0x80405060] hpacked).1 rfl
  obtain ⟨n, c, hn, hc, hget⟩ := hpixel 1 0 (by decide) (by decide)
  cases hn
  cases hc
  exact ⟨⟨by decide, by decide, hpacked, rfl⟩, im, him, hsize, hget, hback⟩

end Image

end Perception
