set_option autoImplicit false

/-! # Loose data

What a settings file, a JSON document or a caller's argument may hold before anyone has looked at
its shape: nothing, a truth value, a number, a text, a list or a record. Records keep the order in
which their keys first came; a key that comes again replaces the value at its first place
(`Datum.insert`), and look-up finds the one value a key has (`Datum.find?`).
-/

namespace Perception

/-- Sorts of value that a settings file can hold and that nothing here computes with. -/
inductive Foreign
  | date
  | moment
  | bytes
  | set
  /-- A value met again within itself. -/
  | loop
  deriving DecidableEq, Repr

/-- Data of no fixed shape. -/
inductive Datum
  | null
  | bool (b : Bool)
  | int (i : Int)
  | float (x : Float)
  | text (s : String)
  | list (items : List Datum)
  | record (entries : List (Datum × Datum))
  /-- A value of a foreign sort, with its written content. -/
  | foreign (sort : Foreign) (content : String)
  deriving Inhabited

namespace Datum

/-- Do two keys name the same entry? Numbers are compared by value whatever their sort, a truth
value counting as 0 or 1. Lists and records are never keys. -/
def sameKey : Datum → Datum → Bool
  | null, null => true
  | text s, text t => s == t
  | foreign k s, foreign l t => k == l && s == t
  | a, b =>
      match number? a, number? b with
      | some x, some y => numberEq x y
      | _, _ => false
where
  /-- A number as a whole number or a fractional one. -/
  number? : Datum → Option (Int ⊕ Float)
    | bool b => some (.inl (if b then 1 else 0))
    | int i => some (.inl i)
    | float x => some (.inr x)
    | _ => none
  numberEq : Int ⊕ Float → Int ⊕ Float → Bool
    | .inl i, .inl j => i == j
    | .inr x, .inr y => x == y
    | .inl i, .inr y => Float.ofInt i == y
    | .inr x, .inl j => x == Float.ofInt j

/-- Sets the value of a key: in place if the key is there, else at the end. -/
def insert (entries : List (Datum × Datum)) (key value : Datum) : List (Datum × Datum) :=
  match entries with
  | [] => [(key, value)]
  | (k, v) :: rest => if sameKey k key then (k, value) :: rest else (k, v) :: insert rest key value

/-- A record from entries in the order in which they are written; a later one wins. -/
def ofEntries (entries : List (Datum × Datum)) : List (Datum × Datum) :=
  entries.foldl (fun r (k, v) => insert r k v) []

def lookup (entries : List (Datum × Datum)) (key : String) : Option Datum :=
  match entries with
  | [] => none
  | (text k, v) :: rest => if k = key then some v else lookup rest key
  | _ :: rest => lookup rest key

/-- The value under a key, `none` for an absent key and for data that are no record. -/
def find? (key : String) : Datum → Option Datum
  | record entries => lookup entries key
  | _ => none

/-- The value under a key, `null` if there is none. -/
def get (d : Datum) (key : String) : Datum := (d.find? key).getD null

/-- Does the value count as present? Nothing, `false`, zero and whatever is empty do not. -/
def isTruthy : Datum → Bool
  | null => false
  | bool b => b
  | int i => i != 0
  | float x => !(x == 0.0)
  | text s => !s.isEmpty
  | list items => !items.isEmpty
  | record entries => !entries.isEmpty
  | foreign .date _ => true
  | foreign .moment _ => true
  | foreign .loop _ => true
  | foreign _ content => !content.isEmpty

/-- A record with texts as keys. -/
def object (entries : List (String × Datum)) : Datum :=
  record (entries.map fun (k, v) => (text k, v))

def items : Datum → List Datum
  | list xs => xs
  | _ => []

def entries : Datum → List (Datum × Datum)
  | record es => es
  | _ => []

def text? : Datum → Option String
  | text s => some s
  | _ => none

def int? : Datum → Option Int
  | int i => some i
  | _ => none

instance : Coe String Datum := ⟨text⟩
instance : Coe Int Datum := ⟨int⟩
instance : Coe Bool Datum := ⟨bool⟩
instance : Coe Nat Datum := ⟨fun n => int n⟩

end Datum

end Perception
