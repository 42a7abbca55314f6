import Perception.Failure
import Perception.Files.Path
import Perception.Image.Basic

set_option autoImplicit false

/-! # File trees

The files and directories there are, each at its location: the names that lead to it from the top.
The top is a directory. A path leads to a location by walking along its names, each of which but the
last must be a directory that exists (`FileTree.walk`).
-/

namespace Perception

/-- Names from the top down. -/
abbrev Location := List String

/-- A stored value of a model: an array of numbers, a record, a list, or a plain value. -/
inductive Checkpoint
  | tensor (shape : List Nat) (values : List Float)
  | record (entries : List (Datum × Checkpoint))
  | list (items : List Checkpoint)
  | plain (d : Datum)

/-- What a file holds: bytes, or a stored image or model, which are read as such. -/
inductive Content
  | bytes (bs : Bytes)
  | picture (im : Image)
  | model (c : Checkpoint)

inductive Entry
  | file (c : Content)
  | directory

/-- Entries at locations; each location has at most one. -/
structure FileTree where
  entries : List (Location × Entry)

namespace FileTree

/-- What is at a location. The top is always a directory. -/
def get? (t : FileTree) (l : Location) : Option Entry :=
  if l = [] then some .directory else (t.entries.find? fun e => e.1 == l).map Prod.snd

def erase (t : FileTree) (l : Location) : FileTree := ⟨t.entries.filter fun e => e.1 != l⟩

/-- Puts an entry at a location in place of what is there. -/
def put (t : FileTree) (l : Location) (e : Entry) : FileTree := ⟨(l, e) :: (t.erase l).entries⟩

def eraseAll (t : FileTree) (l : Location) : FileTree :=
  ⟨t.entries.filter fun e => !l.isPrefixOf e.1⟩

def isDirectoryAt (t : FileTree) (l : Location) : Bool :=
  match t.get? l with
  | some .directory => true
  | _ => false

/-- The locations right below one, by their last names. -/
def childNames (t : FileTree) (l : Location) : List String :=
  t.entries.filterMap fun e =>
    if l.isPrefixOf e.1 && e.1.length = l.length + 1 then e.1.getLast? else none

def maxNameBytes : Nat := 255

/-- Walks along names from a location. All but the last must lead to directories; two dots lead up,
and from the top to the top. -/
def walk (t : FileTree) : Location → List String → Except SystemCause Location
  | at_, [] => .ok at_
  | at_, n :: ns =>
      match t.get? at_ with
      | none => .error .missing
      | some (.file _) => .error .notDirectory
      | some .directory =>
          if n.utf8ByteSize > maxNameBytes then .error .nameTooLong
          else if n = ".." then walk t at_.dropLast ns
          else walk t (at_ ++ [n]) ns

/-- The location of a path, seen from the directory one stands in. -/
def locate (t : FileTree) (here : Location) (p : Path) : Except SystemCause Location :=
  walk t (if p.isAbsolute then [] else here) p.names

def find (t : FileTree) (here : Location) (p : Path) : Except SystemCause (Location × Entry) :=
  match t.locate here p with
  | .error e => .error e
  | .ok l =>
      match t.get? l with
      | some e => .ok (l, e)
      | none => .error .missing

def read (t : FileTree) (here : Location) (p : Path) : Except SystemCause Content :=
  match t.find here p with
  | .error e => .error e
  | .ok (_, .directory) => .error .isDirectory
  | .ok (_, .file c) => .ok c

/-- Does a path lead to a file? A name that no file can have is an error of its own. -/
def isFile (t : FileTree) (here : Location) (p : Path) : Except SystemCause Bool :=
  match t.find here p with
  | .ok (_, .file _) => .ok true
  | .ok (_, .directory) => .ok false
  | .error .nameTooLong => .error .nameTooLong
  | .error _ => .ok false

def isDirectory (t : FileTree) (here : Location) (p : Path) : Except SystemCause Bool :=
  match t.find here p with
  | .ok (_, .directory) => .ok true
  | .ok (_, .file _) => .ok false
  | .error .nameTooLong => .error .nameTooLong
  | .error _ => .ok false

def makeDirectory (t : FileTree) (here : Location) (p : Path) : Except SystemCause FileTree :=
  match t.locate here p with
  | .error e => .error e
  | .ok l =>
      match t.get? l with
      | some _ => .error .exists
      | none =>
          match t.get? l.dropLast with
          | some .directory => .ok (t.put l .directory)
          | some (.file _) => .error .notDirectory
          | none => .error .missing

def ensureDirectory (t : FileTree) (here : Location) (p : Path) : Except SystemCause FileTree :=
  match t.makeDirectory here p with
  | .ok t => .ok t
  | .error e => if (t.isDirectory here p).toOption = some true then .ok t else .error e

/-- Makes a directory and those above it, unless they are there already. The tree is given back also
where this fails, with the directories made so far. `fuel` is the number of names that may be cut
off. -/
def ensureAll (t : FileTree) (here : Location) : Nat → Path → FileTree × Except SystemCause Unit
  | 0, p =>
      match t.ensureDirectory here p with
      | .ok t => (t, .ok ())
      | .error e => (t, .error e)
  | fuel + 1, p =>
      match t.makeDirectory here p with
      | .ok t => (t, .ok ())
      | .error .missing =>
          if p.names = [] then (t, .error .missing)
          else match ensureAll t here fuel p.parent with
            | (t, .error e) => (t, .error e)
            | (t, .ok ()) =>
                match t.ensureDirectory here p with
                | .ok t => (t, .ok ())
                | .error e => (t, .error e)
      | .error e =>
          if (t.isDirectory here p).toOption = some true then (t, .ok ()) else (t, .error e)

/-- Makes a directory and those above it, unless they are there already. -/
def makeDirectories (t : FileTree) (here : Location) (p : Path) :
    FileTree × Except SystemCause Unit :=
  t.ensureAll here p.names.length p

def write (t : FileTree) (here : Location) (p : Path) (c : Content) : Except SystemCause FileTree :=
  match t.locate here p with
  | .error e => .error e
  | .ok l =>
      match t.get? l with
      | some .directory => .error .isDirectory
      | some (.file _) => .ok (t.put l (.file c))
      | none =>
          match t.get? l.dropLast with
          | some .directory => .ok (t.put l (.file c))
          | some (.file _) => .error .notDirectory
          | none => .error .missing

/-- Puts an entry somewhere together with the directories above it. -/
def plant (t : FileTree) (l : Location) (e : Entry) : FileTree :=
  let t := (List.range l.length).foldl
    (fun t n =>
      let above := l.take n
      if (t.get? above).isSome then t else t.put above .directory)
    t
  t.put l e

/-- The first of the names `tmp0`, `tmp1`, … that is none of some names. `fuel` is at least the
number of these. -/
def unusedName (used : List String) : Nat → Nat → String
  | 0, n => s!"tmp{n}"
  | fuel + 1, n =>
      let name := s!"tmp{n}"
      if used.contains name then unusedName used fuel (n + 1) else name

/-- A name that nothing in a directory has, and that differs from a given one. -/
def freshName (t : FileTree) (dir : Location) (other : String) : String :=
  let used := other :: t.childNames dir
  unusedName used used.length 0

/-- The locations below one as relative paths, directories with a slash at the end, sorted. -/
def listing (t : FileTree) (dir : Location) : List String :=
  let below := t.entries.filterMap fun e =>
    if dir.isPrefixOf e.1 && dir.length < e.1.length then
      let path := "/".intercalate (e.1.drop dir.length)
      some (match e.2 with
        | .directory => path ++ "/"
        | .file _ => path)
    else none
  below.mergeSort fun a b => !decide (b < a)

end FileTree

end Perception
