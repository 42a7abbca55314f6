import Perception.Text.Blank

set_option autoImplicit false

/-! # Paths

A path is a root, which may be absent, and a list of names. Doubled slashes and single dots leave no
trace in it; two dots do, since what they lead to depends on the files there are. Joining an
absolute path to another replaces that (`Path.join`).
-/

namespace Perception

/-- Where a path starts: where one stands, at the top, or at the top marked by two slashes. -/
inductive Root
  | relative
  | top
  | doubled
  deriving DecidableEq, Repr

structure Path where
  root : Root
  names : List String
  deriving DecidableEq, Repr

namespace Path

/-- Names that a written path leaves no trace of. -/
def isTrivial (name : List Char) : Bool := name = [] || name = ['.']

def rootOf : List Char → Root
  | '/' :: '/' :: '/' :: _ => .top
  | '/' :: '/' :: _ => .doubled
  | '/' :: _ => .top
  | _ => .relative

def namesOf (cs : List Char) : List String :=
  ((Text.splitAt (· = '/') cs).filter fun n => !isTrivial n).map String.ofList

def ofChars (cs : List Char) : Path := ⟨rootOf cs, namesOf cs⟩

/-- The path that a text names. -/
def ofString (s : String) : Path := ofChars s.toList

def rootText : Root → String
  | .relative => ""
  | .top => "/"
  | .doubled => "//"

/-- A path as it is written; the path that names nothing is a dot. -/
def toString (p : Path) : String :=
  if p.root = .relative ∧ p.names = [] then "." else rootText p.root ++ "/".intercalate p.names

instance : ToString Path := ⟨toString⟩

def isAbsolute (p : Path) : Bool := p.root ≠ .relative

/-- One path seen from another: an absolute one stays as it is. -/
def join (p q : Path) : Path := if q.isAbsolute then q else ⟨p.root, p.names ++ q.names⟩

/-- A path extended by written ones, one after another. -/
def extend (p : Path) (parts : List String) : Path :=
  parts.foldl (fun p s => p.join (ofString s)) p

def parent (p : Path) : Path := { p with names := p.names.dropLast }

/-- The last name, empty if there is none. -/
def name (p : Path) : String := p.names.getLast?.getD ""

/-- A name up to its last dot, unless the dot comes first or last. -/
def stemOf (name : List Char) : List Char :=
  match Text.cutAtLast? (· = '.') name with
  | some (before, ending) => if before.isEmpty || ending.isEmpty then name else before
  | none => name

/-- What follows the last dot of a name, the dot included; nothing if it comes first or last. -/
def suffixOf (name : List Char) : List Char :=
  match Text.cutAtLast? (· = '.') name with
  | some (before, ending) => if before.isEmpty || ending.isEmpty then [] else '.' :: ending
  | none => []

def stem (p : Path) : String := String.ofList (stemOf p.name.toList)

/-- The path with another last name, `none` if it has no name to replace. -/
def withName? (p : Path) (name : String) : Option Path :=
  if p.names = [] then none else some { p with names := p.names.dropLast ++ [name] }

/-- Does a character that no file name can hold occur? -/
def hasNul (p : Path) : Bool := p.names.any fun n => n.toList.any fun c => c.toNat = 0

end Path

end Perception
