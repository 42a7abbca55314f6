import Perception.Dataset.Batch
import Perception.Dataset.Stats
import Perception.Dataset.Transform
import Perception.Image.Source

set_option autoImplicit false

/-! # Datasets in directories

A directory holds parts of a dataset, a part has a directory for each class, and a class has
pictures in it, at any depth. Classes are numbered in the order of their names; the pictures of a
class are visited directory by directory, in the order of the directories' paths, and by name in
each (`ImageFolder.find`). Pictures are prepared by a pipeline when they are put into a batch.
-/

namespace Perception

/-- A dataset in a directory, before its pictures are looked for. -/
structure FolderSpec where
  root : Path
  usage : Usage
  pipeline : Pipeline

/-- The classes of a dataset, and its pictures with the number of their class. -/
structure ImageFolder where
  classes : List String
  pictures : List (Path × Nat)
  pipeline : Pipeline

namespace FolderSpec

def directory (s : FolderSpec) : Path := s.root.extend [s.usage.directory]

end FolderSpec

namespace ImageFolder

def source : String := "modalkit.datasets.loaders"

def endings : List String :=
  [".jpg", ".jpeg", ".png", ".ppm", ".bmp", ".pgm", ".tif", ".tiff", ".webp"]

def isPictureName (name : String) : Bool :=
  let cs := name.toList.map Char.toLower
  endings.any fun e => e.toList.isSuffixOf cs

/-- In the order of code points. -/
def sortTexts (xs : List String) : List String := xs.mergeSort fun a b => !decide (b < a)

/-- The directories below a location and the location itself, as names from there on. -/
def directoriesBelow (t : FileTree) (l : Location) : List Location :=
  [] :: t.entries.filterMap fun (at_, e) =>
    match e with
    | .directory =>
        if l.isPrefixOf at_ && l.length < at_.length then some (at_.drop l.length) else none
    | .file _ => none

def picturesIn (t : FileTree) (l : Location) : List String :=
  sortTexts ((t.childNames l).filter fun n =>
    isPictureName n && match t.get? (l ++ [n]) with
      | some (.file _) => true
      | _ => false)

/-- The pictures at any depth below a location, as names from there on. -/
def picturesBelow (t : FileTree) (l : Location) : List Location :=
  let pathText (d : Location) : String := String.join (d.map fun n => "/" ++ n)
  let dirs := (directoriesBelow t l).mergeSort fun a b => !decide (pathText b < pathText a)
  dirs.flatMap fun d => (picturesIn t (l ++ d)).map fun n => d ++ [n]

/-- The classes of a part: the directories right in it, by name. -/
def classesIn (t : FileTree) (l : Location) : List String :=
  sortTexts ((t.childNames l).filter fun n => t.isDirectoryAt (l ++ [n]))

/-- Looks for the classes and pictures of a part. There must be a class, and a picture of each. -/
def find (s : FolderSpec) : SessionM ImageFolder := do
  let dir := s.directory
  if !(← Session.onHost (Host.isDirectory dir)) then throw (.splitMissing dir.toString)
  let h := (← get).host
  match h.tree.locate h.here dir with
  | .error e => throw (.system e dir.toString)
  | .ok l =>
      let classes := classesIn h.tree l
      if classes.isEmpty then throw (.plain .notFound)
      let found := classes.map fun c => picturesBelow h.tree (l ++ [c])
      if found.any List.isEmpty then throw (.plain .notFound)
      let pictures := (classes.zip found).zipIdx.flatMap fun ((c, ps), i) =>
        ps.map fun p => (dir.extend (c :: p), i)
      Session.note .info source
        s!"Loaded {pictures.length} images in {classes.length} classes from {dir}"
      return ⟨classes, pictures, s.pipeline⟩

def size (f : ImageFolder) : Nat := f.pictures.length

/-- One picture prepared, and the number of its class. -/
def sample (f : ImageFolder) (i : Nat) : SessionM (NdArray × Nat) := do
  match f.pictures[i]? with
  | none => throw (.plain .index)
  | some (path, label) => do
      let im ← Session.ofOutcome (Image.ofContent (← Session.onHost (Host.read path)))
      let s ← get
      let (a, tensors) := f.pipeline.apply (im.convert .rgb) s.streams.tensors
      set { s with streams := { s.streams with tensors := tensors } }
      return ((← Session.ofOutcome a).toNdArray, label)

def batch (f : ImageFolder) (indices : List Nat) : SessionM Batch := do
  let samples ← indices.mapM f.sample
  let data ← Session.ofOutcome (NdArray.stack (samples.map Prod.fst))
  return ⟨data, ⟨.signed 64, [samples.length], (samples.map fun s => .int s.2).toArray⟩⟩

end ImageFolder

namespace Session

/-- Draws with the session's generator of tensors as the shared one. -/
def withDraws {α : Type} (own : Option Random.Generator) (f : Draws → α × Draws) :
    SessionM (α × Option Random.Generator) := do
  let s ← get
  let (a, d) := f ⟨own, s.streams.tensors⟩
  set { s with streams := { s.streams with tensors := d.shared } }
  return (a, d.own)

/-- The pipeline that normalizes by the statistics in a file, or by the usual ones. -/
def usualPipeline (stats : Datum) : SessionM Pipeline := do
  match stats with
  | .null => return Pipeline.normalizing Pipeline.usualMean Pipeline.usualDeviation
  | path => do
      let s ← ChannelStats.load path
      return Pipeline.normalizing (.list (s.mean.map .float)) (.list (s.deviation.map .float))

end Session

end Perception
