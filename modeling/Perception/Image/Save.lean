import Perception.Web.Host

set_option autoImplicit false

/-! # Writing pictures

A picture is written in the format that the ending of the file's name stands for. An ending that
stands for none, or for a format that is only read, is refused before anything is written. A format
that cannot hold an alpha channel refuses such a picture once the file is open: a new file is
removed then, and one that was there before is left empty.
-/

namespace Perception.Image

/-- What a format makes of a picture with an alpha channel. -/
inductive AlphaUse
  | kept
  | dropped
  /-- The picture is refused, with a failure of some sort. -/
  | refused (kind : FailureKind)
  /-- Pictures are read in this format, but not written. -/
  | readOnly
  deriving DecidableEq, Repr

/-- The endings of files by what becomes of an alpha channel. -/
def endings : List (AlphaUse × List String) := [
  (.kept, [".png", ".apng", ".tif", ".tiff", ".tga", ".icb", ".vda", ".vst", ".webp", ".gif",
    ".sgi", ".rgb", ".rgba", ".bw", ".im", ".dds", ".qoi", ".jp2", ".j2k", ".jpc", ".jpf", ".jpx", ".j2c",
    ".ico", ".icns", ".avif", ".pdf"]),
  (.dropped, [".bmp", ".dib", ".ppm", ".pgm", ".pbm", ".pnm", ".pfm"]),
  (.refused .io, [".jpg", ".jpeg", ".jpe", ".jfif", ".mpo", ".msp", ".xbm", ".palm", ".bufr",
    ".grib", ".h5", ".hdf", ".wmf", ".emf"]),
  (.refused .value, [".eps", ".ps", ".pcx", ".blp"]),
  (.readOnly, [".psd", ".fit", ".fits", ".fli", ".flc", ".dcx", ".cur", ".ftc", ".ftu", ".gbr",
    ".iim", ".pcd", ".pxr", ".ras", ".xpm", ".mpg", ".mpeg"])]

/-- The ending of a name from its last point on, in lower case. Points in front do not count. -/
def endingOf (name : String) : String :=
  match Text.cutAtLast? (· = '.') (name.toList.dropWhile (· = '.')) with
  | some (_, ending) => "." ++ (String.ofList ending).toLower
  | none => ""

/-- What becomes of an alpha channel in a file of a name, `none` if it stands for no format. -/
def alphaUse? (name : String) : Option AlphaUse :=
  (endings.find? fun e => e.2.contains (endingOf name)).map Prod.fst

/-- Opens a file for writing and gives it up: it is left empty if it was there before. -/
def abandon (path : Path) (kind : FailureKind) : HostM Unit := do
  let before ← Host.isFile path
  Host.write path (.bytes [])
  if !before then
    modify fun h => match h.tree.locate h.here path with
      | .ok l => { h with tree := h.tree.erase l }
      | .error _ => h
  throw (.plain kind)

def save (im : Image) (path : Path) : HostM Unit := do
  match alphaUse? path.name with
  | none => throw (.plain .value)
  | some .readOnly => throw (.plain .key)
  | some .kept => Host.write path (.picture im)
  | some .dropped => Host.write path (.picture (if im.mode.hasAlpha then im.convert .rgb else im))
  | some (.refused kind) =>
      if im.mode.hasAlpha then abandon path kind else Host.write path (.picture im)

end Perception.Image
