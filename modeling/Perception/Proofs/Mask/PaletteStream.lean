import Perception.Proofs.Mask.Palette
import Perception.Proofs.Number.Order
import Perception.Proofs.Random.Draws

set_option autoImplicit false

/-! # Palettes as parts of a stream

Class `i` has the bytes of draws `3 i` to `3 i + 2`, counted from zero, and the alpha of the
transparency (`Mask.palette_proper`), so neither the grid and the names of a mask nor the classes
that come after have a part in its colour. What is outside the range of transparencies draws nothing
(`Mask.palette_improper`). Palettes one after another therefore cut the stream into consecutive
pieces (`Mask.palettes_run`), which is put together in `Mask.palette_stable`.
-/

namespace Perception

namespace Transparency

/-- A number below 0 or above 1, or what is not a number. -/
def IsOutside : Transparency → Prop
  | level x => x < 0.0 ∨ 1.0 < x ∨ x.isNaN = true
  | whole i => i < 0 ∨ 1 < i
  | truth _ => False
  | unfit => False

/-- **What is outside** is refused as a value. -/
theorem alpha_of_isOutside {t : Transparency} (h : t.IsOutside) :
    ∃ e, t.alpha = .error e ∧ e.kind = .value := by
  cases t with
  | level x =>
      have hnot : ¬(0.0 ≤ x ∧ x ≤ 1.0) := by
        rintro ⟨hlow, hhigh⟩
        rcases h with hbelow | habove | hnan
        · exact Number.not_le_of_lt hbelow hlow
        · exact Number.not_le_of_lt habove hhigh
        · exact Number.not_le_of_isNaN (Or.inr hnan) hlow
      exact ⟨_, if_neg hnot, rfl⟩
  | whole i =>
      have hnot : ¬(0 ≤ i ∧ i ≤ 1) := by
        rcases h with hbelow | habove <;> omega
      exact ⟨_, if_neg hnot, rfl⟩
  | truth b => exact h.elim
  | unfit => exact h.elim

end Transparency

namespace Mask

open Perception.Random (Generator)

/-! ## One palette -/

/-- The colour of class `i` in a palette that is drawn next: three bytes in a row, and an alpha. -/
def drawnColour (alpha : UInt8) (g : Generator) (i : Nat) : Rgba :=
  ⟨g.byteAt (3 * i), g.byteAt (3 * i + 1), g.byteAt (3 * i + 2), alpha⟩

/-- The first three draws are those of class 0, and the others go on after them. -/
theorem drawnColour_succ (alpha : UInt8) (g : Generator) (i : Nat) :
    drawnColour alpha g (i + 1) = drawnColour alpha (g.after 3) i := by
  have hplace (k : Nat) : g.byteAt (3 * (i + 1) + k) = (g.after 3).byteAt (3 * i + k) := by
    rw [← Generator.byteAt_add]
    congr 1
    omega
  rw [drawnColour, drawnColour, ← hplace 1, ← hplace 2]
  exact congrArg (fun r => Rgba.mk r _ _ alpha) (hplace 0)

theorem coloursOf_take (alpha : UInt8) (n : Nat) (g : Generator) :
    coloursOf alpha (g.take (3 * n)).1 = (List.range n).map (drawnColour alpha g) := by
  -- the first colour is taken off the front, so the others are those of a later generator
  induction n generalizing g with
  | zero => rfl
  | succ n ih =>
      have hlater : (fun i => drawnColour alpha g (i + 1)) = drawnColour alpha (g.after 3) :=
        funext (drawnColour_succ alpha g)
      rw [List.range_succ_eq_map, List.map_cons, List.map_map]
      show drawnColour alpha g 0 :: coloursOf alpha ((g.after 3).take (3 * n)).1
        = drawnColour alpha g 0 :: (List.range n).map fun i => drawnColour alpha g (i + 1)
      rw [ih, hlater]

/-- **A palette** has the colours of the next draws, three for each class, and leaves the generator
after these. -/
theorem palette_proper (m : Mask) {t : Transparency} {alpha : UInt8} (h : t.alpha = .ok alpha)
    (g : Generator) :
    m.palette t g = (.ok ((List.range m.classes.length).map (drawnColour alpha g)).toArray,
      g.after (3 * m.classes.length)) := by
  rw [palette, h, ← coloursOf_take, ← (Generator.take_eq _ g).2]

/-- A transparency that is refused draws nothing. -/
theorem palette_improper (m : Mask) {t : Transparency} {e : Failure} (h : t.alpha = .error e)
    (g : Generator) : m.palette t g = (.error e, g) := by
  rw [palette, h]

/-! ## Palettes one after another -/

def palettes : List (Mask × Transparency) → Generator → List (Outcome (Array Rgba)) × Generator
  | [], g => ([], g)
  | (m, t) :: calls, g =>
      let (colours, g) := m.palette t g
      let (rest, g) := palettes calls g
      (colours :: rest, g)

/-- How many colours are drawn for a palette: one for each class, none if the transparency is
refused. -/
def coloursDrawn (m : Mask) (t : Transparency) : Nat :=
  match t.alpha with
  | .ok _ => m.classes.length
  | .error _ => 0

def coloursDrawnBy : List (Mask × Transparency) → Nat
  | [] => 0
  | (m, t) :: calls => coloursDrawn m t + coloursDrawnBy calls

/-- The drawn bytes of a palette, in the order of the classes. -/
def drawnBytes : Outcome (Array Rgba) → List UInt8
  | .ok colours => colours.toList.flatMap fun c => [c.r, c.g, c.b]
  | .error _ => []

theorem flatMap_drawnColour (alpha : UInt8) (n : Nat) (g : Generator) :
    ((List.range n).map (drawnColour alpha g)).flatMap (fun c => [c.r, c.g, c.b])
      = (List.range (3 * n)).map g.byteAt := by
  induction n with
  | zero => rfl
  | succ n ih =>
      rw [List.range_succ, List.map_append, List.flatMap_append, ih, Nat.mul_succ,
        List.range_succ, List.range_succ, List.range_succ, List.map_append, List.map_append,
        List.map_append, List.append_assoc, List.append_assoc]
      rfl

/-- What one palette takes off the stream. -/
theorem palette_segment (m : Mask) (t : Transparency) (g : Generator) :
    drawnBytes (m.palette t g).1 = (List.range (3 * coloursDrawn m t)).map g.byteAt ∧
      (m.palette t g).2 = g.after (3 * coloursDrawn m t) := by
  cases halpha : t.alpha with
  | error e =>
      have hcount : coloursDrawn m t = 0 := by rw [coloursDrawn, halpha]
      rw [palette_improper m halpha, hcount]
      exact ⟨rfl, rfl⟩
  | ok alpha =>
      have hcount : coloursDrawn m t = m.classes.length := by rw [coloursDrawn, halpha]
      rw [palette_proper m halpha, hcount]
      exact ⟨flatMap_drawnColour alpha _ g, rfl⟩

/-- **Palettes one after another** have the bytes of consecutive draws. -/
theorem palettes_run (calls : List (Mask × Transparency)) (g : Generator) :
    (palettes calls g).1.flatMap drawnBytes
        = (List.range (3 * coloursDrawnBy calls)).map g.byteAt ∧
      (palettes calls g).2 = g.after (3 * coloursDrawnBy calls) := by
  induction calls generalizing g with
  | nil => exact ⟨rfl, rfl⟩
  | cons call calls ih =>
      obtain ⟨m, t⟩ := call
      obtain ⟨hfirst, hafter⟩ := palette_segment m t g
      -- the rest is drawn from where the first palette left the stream
      obtain ⟨hrest, hend⟩ := ih (m.palette t g).2
      have hlater : (m.palette t g).2.byteAt = fun k => g.byteAt (3 * coloursDrawn m t + k) := by
        rw [hafter]
        exact funext fun k => (g.byteAt_add _ k).symm
      rw [coloursDrawnBy, Nat.mul_add, List.range_add, List.map_append, List.map_map,
        g.after_add, ← hafter]
      refine ⟨?_, hend⟩
      show drawnBytes (m.palette t g).1 ++ (palettes calls (m.palette t g).2).1.flatMap drawnBytes = _
      rw [hfirst, hrest, hlater]
      rfl

/-! ## Stability -/

/-- **Palettes are stable.** A class has the same colour in all palettes that are drawn with one
transparency from one state of the generator, however many classes there are after it: three bytes
of consecutive draws, and an alpha that depends on the transparency alone. Each palette takes three
draws for each class and no more, so palettes one after another have consecutive pieces of the
stream. A transparency out of range is refused as a value, and draws nothing. -/
theorem palette_stable :
    (∀ t : Transparency, t.IsProper → ∃ alpha, t.alpha = .ok alpha ∧
      ∀ (g : Generator) (m n : Mask), m.classes.length ≤ n.classes.length →
        ∃ few many : Array Rgba,
          m.palette t g = (.ok few, g.after (3 * m.classes.length)) ∧
          n.palette t g = (.ok many, g.after (3 * n.classes.length)) ∧
          few.size = m.classes.length ∧ many.size = n.classes.length ∧
          (∀ i < m.classes.length, few[i]? = many[i]?) ∧
          ∀ i < n.classes.length, many[i]?
            = some ⟨g.byteAt (3 * i), g.byteAt (3 * i + 1), g.byteAt (3 * i + 2), alpha⟩) ∧
    (∀ (calls : List (Mask × Transparency)) (g : Generator),
      (palettes calls g).1.flatMap drawnBytes
          = (List.range (3 * coloursDrawnBy calls)).map g.byteAt ∧
        (palettes calls g).2 = g.after (3 * coloursDrawnBy calls)) ∧
    ∀ t : Transparency, t.IsOutside → ∀ (m : Mask) (g : Generator),
      ∃ e, m.palette t g = (.error e, g) ∧ e.kind = .value := by
  refine ⟨fun t ht => ?_, palettes_run, fun t ht m g => ?_⟩
  · obtain ⟨alpha, halpha⟩ := t.alpha_of_isProper ht
    refine ⟨alpha, halpha, fun g m n hmn => ⟨_, _, m.palette_proper halpha g,
      n.palette_proper halpha g, by simp, by simp, fun i hi => ?_, fun i hi => ?_⟩⟩
    · simp [hi, hi.trans_le hmn]
    · simp [hi, drawnColour]
  · obtain ⟨e, he, hkind⟩ := Transparency.alpha_of_isOutside ht
    exact ⟨e, m.palette_improper he g, hkind⟩

def calmMask : Mask := ⟨["sky"], ⟨1, 1, #[0], rfl⟩, by decide, by decide, by decide⟩

def shoreMask : Mask :=
  ⟨["sky", "sea", "sand"], ⟨2, 2, #[0, 1, 2, 2], rfl⟩, by decide, by decide, by decide⟩

theorem palette_stable_shore :
    (Transparency.level 0.5).IsProper ∧ (Transparency.level 1.5).IsOutside ∧
      calmMask.classes.length ≤ shoreMask.classes.length ∧
      (∃ few many : Array Rgba, calmMask.palette (.level 0.5) (.ofSeed 7)
          = (.ok few, (Generator.ofSeed 7).after 3) ∧
        shoreMask.palette (.level 0.5) (.ofSeed 7) = (.ok many, (Generator.ofSeed 7).after 9) ∧
        few[0]? = many[0]?) ∧
      ∃ e, shoreMask.palette (.level 1.5) (.ofSeed 7) = (.error e, .ofSeed 7) ∧ e.kind = .value := by
  have hproper : (Transparency.level 0.5).IsProper := ⟨by decide +kernel, by decide +kernel⟩
  have houtside : (Transparency.level 1.5).IsOutside := Or.inr (Or.inl (by decide +kernel))
  have hfewer : calmMask.classes.length ≤ shoreMask.classes.length := by decide
  obtain ⟨hstable, -, hrefused⟩ := palette_stable
  obtain ⟨alpha, -, htables⟩ := hstable _ hproper
  obtain ⟨few, many, hfew, hmany, -, -, hsame, -⟩ := htables (.ofSeed 7) _ _ hfewer
  exact ⟨hproper, houtside, hfewer, ⟨few, many, hfew, hmany, hsame 0 (by decide)⟩,
    hrefused _ houtside _ _⟩

end Mask

end Perception
