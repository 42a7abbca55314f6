import Perception.Program.RenderMask
import Perception.Proofs.CommandLine.Arguments
import Perception.Proofs.Mask.Seen
import Perception.Proofs.Session

set_option autoImplicit false

/-! # What a picture is made of

What the arguments ask for: the seed, where the result goes, and the files and values that a picture
is made of (`RenderMask.Material`). A transparency that is asked for is a fraction, and a background
a packed colour (`RenderMask.transparency_of_parse`, `RenderMask.background_of_parse`).
-/

namespace Perception

namespace Mask

variable {classes : List String} {m : Mask}

theorem classes_of_ofGrid? {g : Grid Nat} (h : ofGrid? classes g = some m) :
    m.classes = classes := by
  unfold ofGrid? at h
  split at h
  · cases h
    rfl
  · cases h

theorem classes_of_ofNdArray {a : NdArray} (h : ofNdArray classes a = .ok m) :
    m.classes = classes := by
  unfold ofNdArray at h
  split at h
  · -- a grid: it has places, holds whole numbers, and these are indices of the classes
    split at h
    · cases h
    · split at h
      · cases h
      · dsimp only at h
        split at h
        · cases h
        · split at h
          · next hgrid =>
              cases h
              obtain ⟨g, -, hg⟩ := Option.bind_eq_some_iff.mp hgrid
              exact classes_of_ofGrid? hg
          · cases h
  · cases h

/-- A mask has the classes that it is read with. -/
theorem classes_of_ofJson {text : String} (h : ofJson classes text = .ok m) :
    m.classes = classes := by
  unfold ofJson at h
  split at h
  · unfold ofDocument at h
    split at h
    · obtain ⟨a, -, ha⟩ := Outcome.exists_of_bind_ok h
      exact classes_of_ofNdArray ha
    · cases h
  · cases h

end Mask

namespace RenderMask

open Perception.Random

/-! ## What is asked for -/

/-- The seed of a run: a seed for arrays, the one that is asked for or else that of the settings. -/
def IsSeed (args : Datum) (s : Session) (seed : Int) : Prop :=
  Streams.isArraySeed seed = true ∧
    match args.get "seed" with
    | .null => ∃ now, ((Session.openSettings none).run s).1 = .ok now ∧
        (now.seed >>= Streams.seedOf) = .ok seed
    | d => Streams.seedOf d = .ok seed

/-- Where the result goes: to the file that is asked for, or else beside the image. -/
def GoesTo (args : Datum) (image out : Path) : Prop :=
  (∃ file, args.get "out" = .text file ∧ file ≠ "" ∧ out = .ofString file) ∨
    ((args.get "out").isTruthy = false ∧ outputBeside image = .ok out)

/-- Is the file that is asked for, if one is, a picture in the usual format? -/
def AsksPng (args : Datum) : Prop :=
  ∀ file, args.get "out" = .text file → file ≠ "" →
    ∃ base, (Path.ofString file).name = base ++ ".png"

/-- All that a picture is made of, as the arguments and the files of a machine have it. -/
structure Material (args : Datum) (h : Host) where
  imageFile : String
  image : Image
  classes : List String
  mask : Mask
  alpha : UInt8
  background : Option Int
  imageFile_asked : args.get "image" = .text imageFile
  image_read : ((Host.read (.ofString imageFile)).run h).1 = .ok (.picture image)
  classes_read : ∃ file text, args.get "classes" = .text file ∧
    ((Host.readText (.ofString file)).run h).1 = .ok text ∧ classes = Text.namesIn text
  mask_read : ∃ file text, args.get "mask" = .text file ∧
    ((Host.readText (.ofString file)).run h).1 = .ok text ∧ Mask.ofJson classes text = .ok mask
  size_eq : image.size = mask.size
  alpha_asked : ∃ x, args.get "transparency" = .float x ∧ (Transparency.level x).alpha = .ok alpha
  background_asked : args.get "background" = background.elim .null .int

namespace Material

variable {args : Datum} {h : Host}

def colours (j : Material args h) (g : Generator) : Array Rgba :=
  (Mask.coloursOf j.alpha (g.take (3 * j.classes.length)).1).toArray

/-- Is a picture what the material shows in colours from a generator? -/
structure Shown (j : Material args h) (g : Generator) (w : Image) : Prop where
  mode : w.mode = .rgba
  size : w.size = j.image.size
  pixel : ∀ x y c p, j.mask.cells.get? x y = some c →
    (j.image.convert .rgba).pixels.get? x y = some p →
    w.pixels.get? x y
      = some (Mask.seen (j.colours g) (j.background.map Rgba.ofArgb) c p)

end Material

/-! ## Arguments -/

section Arguments

open CommandLine

variable {words : List String} {args d : Datum} {key : String}

theorem gives_valueSwitch {name : String} {read : String → Except String Datum} {required : Bool}
    {default : Datum} (h : (valueSwitch name read required default).Gives key d) :
    key = String.ofList
        ((name.toList.dropWhile (· = '-')).map fun c => if c = '-' then '_' else c) ∧
      (d = default ∨ d = .list [] ∨ ∃ text, read text = .ok d) := by
  obtain ⟨read', heffect, hd⟩ := h
  cases heffect
  exact ⟨rfl, hd⟩

/-- The value of each key is the one that its switch gives. -/
theorem gives_of_parse (h : parse words = .ok args) (hd : args.get key = d) (hne : d ≠ .null) :
    ∃ s ∈ grammar.switches, s.Gives key d := by
  unfold Datum.get at hd
  cases hfind : args.find? key with
  | none =>
      rw [hfind] at hd
      exact absurd hd.symm hne
  | some v =>
      rw [hfind] at hd
      cases hd
      exact gives_of_arguments rfl h hfind

/-- What the switches give: a transparency is a fraction, a background a packed colour, unless the
mark for plain words stands for it. -/
theorem kind_of_gives {s : Switch} (hs : s ∈ grammar.switches) (h : s.Gives key d) :
    (key = "transparency" → d = .list [] ∨ ∃ x, d = .float x) ∧
      (key = "background" → d = .null ∨ d = .list [] ∨ ∃ i, d = .int i) := by
  have hother : ∀ {name read required default}, s = valueSwitch name read required default →
      name ∈ ["--image", "--mask", "--classes", "--out", "--seed"] →
      key ≠ "transparency" ∧ key ≠ "background" := by
    rintro name read required default rfl hname
    obtain ⟨rfl, -⟩ := gives_valueSwitch h
    simp only [List.mem_cons, List.not_mem_nil, or_false] at hname
    rcases hname with rfl | rfl | rfl | rfl | rfl <;> decide
  have hrest : key ≠ "transparency" ∧ key ≠ "background" →
      (key = "transparency" → d = .list [] ∨ ∃ x, d = .float x) ∧
        (key = "background" → d = .null ∨ d = .list [] ∨ ∃ i, d = .int i) :=
    fun hkey => ⟨fun h => absurd h hkey.1, fun h => absurd h hkey.2⟩
  -- one case for each switch of the grammar, in order
  simp only [grammar, List.mem_cons, List.not_mem_nil, or_false] at hs
  rcases hs with hs | hs | hs | hs | hs | hs | hs | hs
  · obtain ⟨read, heffect, -⟩ := h
    rw [hs] at heffect
    cases heffect
  · exact hrest (hother hs (by decide))
  · exact hrest (hother hs (by decide))
  · exact hrest (hother hs (by decide))
  · exact hrest (hother hs (by decide))
  · rw [hs] at h
    obtain ⟨rfl, hd⟩ := gives_valueSwitch h
    refine ⟨fun _ => ?_, fun hkey => absurd hkey (by decide)⟩
    rcases hd with hd | hd | ⟨text, hread⟩
    · exact Or.inr ⟨_, hd⟩
    · exact Or.inl hd
    · unfold readFraction at hread
      split at hread
      · cases hread
        exact Or.inr ⟨_, rfl⟩
      · cases hread
  · rw [hs] at h
    obtain ⟨rfl, hd⟩ := gives_valueSwitch h
    refine ⟨fun hkey => absurd hkey (by decide), fun _ => ?_⟩
    rcases hd with hd | hd | ⟨text, hread⟩
    · exact Or.inl hd
    · exact Or.inr (Or.inl hd)
    · unfold readColour at hread
      split at hread
      · cases hread
        exact Or.inr (Or.inr ⟨_, rfl⟩)
      · cases hread
  · exact hrest (hother hs (by decide))

theorem transparency_of_parse (h : parse words = .ok args) :
    args.get "transparency" = .null ∨ args.get "transparency" = .list [] ∨
      ∃ x, args.get "transparency" = .float x := by
  by_cases hnull : args.get "transparency" = .null
  · exact Or.inl hnull
  · obtain ⟨s, hs, hgives⟩ := gives_of_parse h rfl hnull
    exact Or.inr ((kind_of_gives hs hgives).1 rfl)

theorem background_of_parse (h : parse words = .ok args) :
    args.get "background" = .null ∨ args.get "background" = .list [] ∨
      ∃ i, args.get "background" = .int i := by
  by_cases hnull : args.get "background" = .null
  · exact Or.inl hnull
  · obtain ⟨s, hs, hgives⟩ := gives_of_parse h rfl hnull
    exact (kind_of_gives hs hgives).2 rfl

end Arguments

end RenderMask

end Perception
