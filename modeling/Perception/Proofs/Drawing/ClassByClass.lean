import Perception.Proofs.Mask.Drawing
import Perception.Proofs.Mask.Palette

set_option autoImplicit false

/-! # Drawing a mask class by class

All classes drawn at once give the image that the classes give one after the other, in any order
(`Mask.draw_eq_classes`). Both are the image under one layer of colours (`Mask.shade`): layers that
are never coloured at the same class combine (`Mask.shade_shade`), since a clear pixel changes
nothing, so drawing some classes in turn is drawing the layer that has all their colours
(`Mask.foldlM_drawLooseClass`).
-/

namespace Perception

namespace Image

/-! ## Layers as images -/

theorem pixels_convert_ofGrid (g : Grid Rgba) : ((ofGrid .rgba g).convert .rgba).pixels = g := by
  rw [convert_of_mode (mode_ofGrid .rgba g), pixels_ofGrid_rgba]

end Image

namespace Mask

open Image

/-! ## An image under a layer -/

/-- The image under a layer that colours each class. -/
def shade (m : Mask) (im : Image) (h : im.size = m.size) (f : Nat → Rgba) : Image :=
  have hs : m.cells.size = im.pixels.size := h.symm
  im.redrawn (Grid.zipWith (fun c p => layPixel im.mode (f c) p) m.cells im.pixels hs)

theorem size_shade (m : Mask) {im : Image} (h : im.size = m.size) (f : Nat → Rgba) :
    (m.shade im h f).size = m.size := rfl

theorem mode_shade (m : Mask) {im : Image} (h : im.size = m.size) (f : Nat → Rgba) :
    (m.shade im h f).mode = im.mode := rfl

theorem key_shade (m : Mask) {im : Image} (h : im.size = m.size) (f : Nat → Rgba) :
    (m.shade im h f).key = im.key := rfl

theorem isDrawable_shade (m : Mask) {im : Image} (hd : im.mode.isDrawable = true)
    (h : im.size = m.size) (f : Nat → Rgba) : (m.shade im h f).mode.isDrawable = true := by
  rw [mode_shade]
  exact hd

theorem pixels_shade (m : Mask) {im : Image} {mode : Mode} (hmode : im.mode = mode)
    (h : im.size = m.size) (hs : m.cells.size = im.pixels.size) (f : Nat → Rgba) :
    (m.shade im h f).pixels
      = Grid.zipWith (fun c p => mode.canon (layPixel mode (f c) p)) m.cells im.pixels hs := by
  subst hmode
  exact Grid.map_zipWith _ _ _ _ _

theorem overlay_classes {m : Mask} {im : Image} (hd : im.mode.isDrawable = true)
    (h : im.size = m.size) (f : Nat → Rgba) :
    im.overlay (.ofGrid .rgba (m.cells.map f)) = .ok (m.shade im h f) := by
  have hs : m.cells.size = im.pixels.size := h.symm
  have hlayer : (ofGrid .rgba (m.cells.map f)).size = im.size := h.symm
  refine (overlay_eq hd hlayer).trans (congrArg (fun g => Except.ok (im.redrawn g)) ?_)
  calc Grid.zipWith (layPixel im.mode) ((ofGrid .rgba (m.cells.map f)).convert .rgba).pixels
          im.pixels _
      = Grid.zipWith (layPixel im.mode) (m.cells.map f) im.pixels hs :=
        Grid.zipWith_congr (pixels_convert_ofGrid _) rfl fun _ _ _ _ => rfl
    _ = Grid.zipWith (fun c p => layPixel im.mode (f c) p) m.cells im.pixels hs :=
        Grid.zipWith_map _ f m.cells im.pixels hs

/-- A layer without colours changes nothing. -/
theorem shade_clear (m : Mask) {im : Image} (h : im.size = m.size) {f : Nat → Rgba}
    (hf : ∀ c, (f c).a = 0) : m.shade im h f = im := by
  refine Image.ext rfl ?_ rfl
  rw [m.pixels_shade rfl h h.symm]
  refine Grid.zipWith_right fun c _ p hp => ?_
  rw [layPixel_clear (hf c)]
  exact im.canonical p hp

/-- **Two layers combine** if no class is coloured by both. -/
theorem shade_shade (m : Mask) {im : Image} (h : im.size = m.size) {f₁ f₂ f : Nat → Rgba}
    (hf : ∀ c, ((f₁ c).a = 0 ∧ f c = f₂ c) ∨ ((f₂ c).a = 0 ∧ f c = f₁ c)) :
    m.shade (m.shade im h f₁) (m.size_shade h f₁) f₂ = m.shade im h f := by
  have hs : m.cells.size = im.pixels.size := h.symm
  have hs₁ : m.cells.size = (m.shade im h f₁).pixels.size := (m.size_shade h f₁).symm
  let lay (f : Nat → Rgba) (c : Nat) (p : Rgba) : Rgba := im.mode.canon (layPixel im.mode (f c) p)
  -- by equations for modes: evaluation would compare the pixels
  have hmode : (m.shade (m.shade im h f₁) (m.size_shade h f₁) f₂).mode = (m.shade im h f).mode := by
    rw [mode_shade, mode_shade, mode_shade]
  have hkey : (m.shade (m.shade im h f₁) (m.size_shade h f₁) f₂).key = (m.shade im h f).key := by
    rw [key_shade, key_shade, key_shade]
  refine Image.ext hmode ?_ hkey
  calc (m.shade (m.shade im h f₁) (m.size_shade h f₁) f₂).pixels
      = Grid.zipWith (lay f₂) m.cells (m.shade im h f₁).pixels hs₁ :=
        m.pixels_shade (m.mode_shade h f₁) (m.size_shade h f₁) hs₁ f₂
    _ = Grid.zipWith (lay f₂) m.cells (Grid.zipWith (lay f₁) m.cells im.pixels hs)
          (Grid.size_zipWith _ _ _ hs).symm :=
        Grid.zipWith_congr rfl (m.pixels_shade rfl h hs f₁) fun _ _ _ _ => rfl
    _ = Grid.zipWith (fun c p => lay f₂ c (lay f₁ c p)) m.cells im.pixels hs :=
        Grid.zipWith_zipWith _ _ _ _ _ _
    _ = Grid.zipWith (lay f) m.cells im.pixels hs := by
        refine Grid.zipWith_congr rfl rfl fun c _ p hp => ?_
        have hp' : im.mode.canon p = p := im.canonical p hp
        show im.mode.canon (layPixel im.mode (f₂ c) (im.mode.canon (layPixel im.mode (f₁ c) p)))
          = im.mode.canon (layPixel im.mode (f c) p)
        -- at each class one of the layers is clear and changes nothing
        rcases hf c with ⟨hclear, hsame⟩ | ⟨hclear, hsame⟩
        · rw [layPixel_clear hclear, hp', hsame]
        · rw [layPixel_clear hclear, Mode.canon_canon, hsame]
    _ = (m.shade im h f).pixels := (m.pixels_shade rfl h hs f).symm

/-! ## One class at a time -/

/-- The layer that colours one class. -/
theorem drawLooseClass_eq {m : Mask} {im : Image} (hd : im.mode.isDrawable = true)
    (h : im.size = m.size) (i : Int) {colour : Datum} {c : Rgba}
    (hc : classColour colour = .ok c) :
    m.drawLooseClass im (.int i) colour
      = .ok (m.shade im h fun k => if i = k then c else Rgba.clear) := by
  rw [drawLooseClass_of_size h _ hc, drawClass_of_size h]
  simp only [classChooser_int]
  exact overlay_classes hd h _

/-- Drawing some classes in turn is drawing the layer that has their colours. -/
theorem foldlM_drawLooseClass {m : Mask} {im : Image} (hd : im.mode.isDrawable = true)
    (h : im.size = m.size) (colours : Array Rgba) {order : List Nat} (horder : order.Nodup) :
    order.foldlM
        (fun im (k : Nat) => m.drawLooseClass im (.int k) (colours.getD k Rgba.clear).toDatum) im
      = .ok (m.shade im h fun c => if c ∈ order then colours.getD c Rgba.clear else Rgba.clear) := by
  induction order generalizing im with
  | nil =>
      rw [shade_clear m h fun _ => rfl]
      rfl
  | cons k ks ih =>
      obtain ⟨hk, hks⟩ := List.nodup_cons.mp horder
      -- class `k` is drawn no more, so its layer and that of the other classes never meet
      let first (c : Nat) : Rgba := if (k : Int) = c then colours.getD k Rgba.clear else Rgba.clear
      have hrest :=
        @ih (m.shade im h first) (m.isDrawable_shade hd h first) (m.size_shade h first) hks
      rw [List.foldlM_cons, drawLooseClass_eq hd h k (classColour_toDatum _)]
      refine hrest.trans (congrArg Except.ok (m.shade_shade h fun c => ?_))
      by_cases hc : k = c
      · subst hc
        exact Or.inr ⟨by rw [if_neg hk]; rfl, by simp [first]⟩
      · have hne : ¬(k : Int) = c := by omega
        refine Or.inl ⟨by rw [show first c = Rgba.clear from if_neg hne]; rfl, ?_⟩
        simp [Ne.symm hc]

/-- Two classes in turn are drawn as the layer with both colours. -/
theorem drawLooseClass_twice {m : Mask} {im : Image} (hd : im.mode.isDrawable = true)
    (h : im.size = m.size) {i j : Int} (hij : i ≠ j) {ci cj : Datum} {a b : Rgba}
    (ha : classColour ci = .ok a) (hb : classColour cj = .ok b) :
    (m.drawLooseClass im (.int i) ci >>= fun im => m.drawLooseClass im (.int j) cj)
      = .ok (m.shade im h fun c => if i = c then a else if j = c then b else Rgba.clear) := by
  let first (c : Nat) : Rgba := if i = c then a else Rgba.clear
  rw [drawLooseClass_eq hd h i ha]
  refine (drawLooseClass_eq (m.isDrawable_shade hd h first) (m.size_shade h first) j hb).trans ?_
  refine congrArg Except.ok (m.shade_shade h fun c => ?_)
  by_cases hi : i = c
  · have hj : ¬j = c := fun hj => hij (hi.trans hj.symm)
    exact Or.inr ⟨by rw [if_neg hj]; rfl, by simp [first, hi]⟩
  · exact Or.inl ⟨by rw [show first c = Rgba.clear from if_neg hi]; rfl, by simp [hi]⟩

/-- Nothing follows a failure. -/
theorem bind_eq_of_error {x y : Outcome Image} {f g : Image → Outcome Image} {e : Failure}
    (hx : x = .error e) (hy : y = .error e) : (x >>= f) = (y >>= g) := by
  rw [hx, hy]
  rfl

/-- **Drawing two classes commutes**: images that cannot be drawn on are refused in both orders, on
others both give the layer with the two colours. -/
theorem drawLooseClass_comm (m : Mask) (im : Image) {i j : Int} {ci cj : Datum} {a b : Rgba}
    (hij : i ≠ j) (ha : classColour ci = .ok a) (hb : classColour cj = .ok b) :
    (m.drawLooseClass im (.int i) ci >>= fun im => m.drawLooseClass im (.int j) cj)
      = (m.drawLooseClass im (.int j) cj >>= fun im => m.drawLooseClass im (.int i) ci) := by
  by_cases h : im.size = m.size
  · by_cases hd : im.mode.isDrawable = true
    · -- no class is both, so it does not matter which one is looked at first
      have hswap : (fun c : Nat => if i = c then a else if j = c then b else Rgba.clear)
          = fun c : Nat => if j = c then b else if i = c then a else Rgba.clear := by
        funext c
        by_cases hi : i = c
        · have hj : ¬j = c := fun hj => hij (hi.trans hj.symm)
          rw [if_pos hi, if_neg hj, if_pos hi]
        · rw [if_neg hi, if_neg hi]
      calc (m.drawLooseClass im (.int i) ci >>= fun im => m.drawLooseClass im (.int j) cj)
          = .ok (m.shade im h fun c => if i = c then a else if j = c then b else Rgba.clear) :=
            drawLooseClass_twice hd h hij ha hb
        _ = .ok (m.shade im h fun c => if j = c then b else if i = c then a else Rgba.clear) :=
            congrArg (fun f => Except.ok (m.shade im h f)) hswap
        _ = (m.drawLooseClass im (.int j) cj >>= fun im => m.drawLooseClass im (.int i) ci) :=
            (drawLooseClass_twice hd h hij.symm hb ha).symm
    · have hfail : ∀ k c x, classColour c = .ok x →
          m.drawLooseClass im (.int k) c = .error (.notDrawable im.mode.name) := by
        intro k c x hc
        rw [drawLooseClass_of_size h _ hc, drawClass_of_size h]
        exact overlay_not_drawable hd _
      exact bind_eq_of_error (hfail i ci a ha) (hfail j cj b hb)
  · have hfail : ∀ k c, m.drawLooseClass im (.int k) c = .error (.maskSize im.size m.size) := by
      intro k c
      rw [drawLooseClass, checkSize_of_ne h]
      rfl
    exact bind_eq_of_error (hfail i ci) (hfail j cj)

/-- What is drawn at once: the layer of all colours. -/
theorem drawWith_none {m : Mask} {im : Image} (hd : im.mode.isDrawable = true)
    (h : im.size = m.size) (colours : Array Rgba) :
    m.drawWith im colours .none = (m.shade im h fun c => colours.getD c Rgba.clear, .ok ()) := by
  rw [drawWith, layer, overlay_classes hd h]

/-- Layers that agree on the classes of the mask give the same image. -/
theorem shade_congr {m : Mask} {im : Image} (h : im.size = m.size) {f f' : Nat → Rgba}
    (hf : ∀ c < m.classes.length, f c = f' c) : m.shade im h f = m.shade im h f' := by
  have hs : m.cells.size = im.pixels.size := h.symm
  refine Image.ext (by rw [mode_shade, mode_shade]) ?_ (by rw [key_shade, key_shade])
  rw [m.pixels_shade rfl h hs, m.pixels_shade rfl h hs]
  refine Grid.zipWith_congr rfl rfl fun c hc p _ => ?_
  rw [hf c (m.inRange c hc)]

/-- **A mask is drawn as its classes are drawn one by one**, in any order and with the same colours;
and drawing two classes with any colours commutes, on any image. -/
theorem draw_eq_classes (m : Mask) :
    (∀ (im : Image) (t : Transparency) (g : Random.Generator) (order : List Nat),
      im.mode = .rgb ∨ im.mode = .rgba → im.size = m.size → t.IsProper →
      order.Perm (List.range m.classes.length) →
      ∃ colours g' drawn, m.palette t g = (.ok colours, g') ∧ colours.size = m.classes.length ∧
        m.draw im t .none g = ⟨drawn, g', .ok ()⟩ ∧
        order.foldlM
            (fun im (k : Nat) => m.drawLooseClass im (.int k) (colours.getD k Rgba.clear).toDatum) im
          = .ok drawn) ∧
    ∀ (im : Image) (i j : Int) (ci cj : Datum) (a b : Rgba), i ≠ j →
      classColour ci = .ok a → classColour cj = .ok b →
      (m.drawLooseClass im (.int i) ci >>= fun im => m.drawLooseClass im (.int j) cj)
        = (m.drawLooseClass im (.int j) cj >>= fun im => m.drawLooseClass im (.int i) ci) := by
  constructor
  · intro im t g order hmode h ht horder
    have hd : im.mode.isDrawable = true := by
      rcases hmode with e | e <;> rw [e] <;> rfl
    obtain ⟨colours, g', hpalette, hsize⟩ := m.palette_of_isProper ht g
    have hnodup : order.Nodup := horder.nodup_iff.mpr List.nodup_range
    refine ⟨colours, g', _, hpalette, hsize, ?_, foldlM_drawLooseClass hd h colours hnodup⟩
    rw [draw_palette_ok h hpalette, drawWith_none hd h]
    congr 1
    -- every class of the mask occurs in the order, so no colour is left out
    refine shade_congr h fun c hc => ?_
    rw [if_pos (horder.mem_iff.mpr (List.mem_range.mpr hc))]
  · intro im i j ci cj a b hij ha hb
    exact m.drawLooseClass_comm im hij ha hb

def stripeMask : Mask :=
  ⟨["sky", "tree", "road"], ⟨3, 1, #[2, 0, 1], rfl⟩, by decide, by decide, by decide⟩

theorem draw_eq_classes_stripe :
    let im := Image.blank .rgba 3 1 ⟨10, 20, 30, 40⟩
    (∃ colours g' drawn, stripeMask.palette (.whole 0) (.ofSeed 7) = (.ok colours, g') ∧
        stripeMask.draw im (.whole 0) .none (.ofSeed 7) = ⟨drawn, g', .ok ()⟩ ∧
        [1, 2, 0].foldlM
            (fun im (k : Nat) =>
              stripeMask.drawLooseClass im (.int k) (colours.getD k Rgba.clear).toDatum) im
          = .ok drawn) ∧
      (stripeMask.drawLooseClass im (.int 1) (.int 0x80ff0000) >>=
          fun im => stripeMask.drawLooseClass im (.int 2) (.bool true))
        = (stripeMask.drawLooseClass im (.int 2) (.bool true) >>=
          fun im => stripeMask.drawLooseClass im (.int 1) (.int 0x80ff0000)) := by
  intro im
  obtain ⟨honce, hcomm⟩ := draw_eq_classes stripeMask
  have horder : [1, 2, 0].Perm (List.range stripeMask.classes.length) := by decide
  have hproper : (Transparency.whole 0).IsProper := ⟨by decide, by decide⟩
  obtain ⟨colours, g', drawn, hpalette, _, hdraw, hclasses⟩ :=
    honce im (.whole 0) (.ofSeed 7) [1, 2, 0] (Or.inr rfl) rfl hproper horder
  exact ⟨⟨colours, g', drawn, hpalette, hdraw, hclasses⟩,
    hcomm im 1 2 _ _ _ _ (by decide) rfl rfl⟩

end Mask

end Perception
