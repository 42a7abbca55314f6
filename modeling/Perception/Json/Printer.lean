import Perception.Datum
import Perception.Number.Written
import Perception.Text.Quoted

set_option autoImplicit false

/-! # Writing JSON

The text of a value, on one line (`Json.compact`) or spread over lines (`Json.spread`). All
characters beyond ASCII are escaped by their UTF-16 units, floating-point numbers are written in
the shortest form that reads back, and what is no number or infinite is written by name.
-/

namespace Perception.Json

def unitEscape (n : Nat) : List Char := '\\' :: 'u' :: Text.hexDigits 4 n

/-- One character inside the quotes. -/
def charText (c : Char) : List Char :=
  if c = '"' then ['\\', '"']
  else if c = '\\' then ['\\', '\\']
  else if c = '\n' then ['\\', 'n']
  else if c = '\r' then ['\\', 'r']
  else if c = '\t' then ['\\', 't']
  else if c.toNat = 8 then ['\\', 'b']
  else if c.toNat = 12 then ['\\', 'f']
  else if 0x20 ≤ c.toNat ∧ c.toNat < 0x7f then [c]
  else if c.toNat < 0x10000 then unitEscape c.toNat
  else
    let n := c.toNat - 0x10000
    unitEscape (0xD800 + n / 0x400) ++ unitEscape (0xDC00 + n % 0x400)

def textChars (cs : List Char) : List Char := '"' :: cs.flatMap charText ++ ['"']

/-- A floating-point number, by name where it has no digits. -/
def floatChars (x : Float) : List Char :=
  match Number.parts x with
  | .nan => "NaN".toList
  | .infinite negative => (if negative then "-Infinity" else "Infinity").toList
  | .finite _ _ _ => Number.chars x

/-- Parts with a separator between two of them. -/
def join (sep : List Char) : List (List Char) → List Char
  | [] => []
  | [p] => p
  | p :: ps => p ++ sep ++ join sep ps

/-- What stands as the key of a member: a text, or the value as it would be written. -/
def keyChars : Datum → List Char
  | .text s => textChars s.toList
  | .int i => textChars (Number.intChars i)
  | .float x => textChars (floatChars x)
  | .bool b => textChars (if b then "true" else "false").toList
  | _ => textChars "null".toList

mutual

/-- A value on one line: a blank follows each comma and each colon. -/
def compactChars : Datum → List Char
  | .null => "null".toList
  | .bool b => (if b then "true" else "false").toList
  | .int i => Number.intChars i
  | .float x => floatChars x
  | .text s => textChars s.toList
  | .foreign _ s => textChars s.toList
  | .list xs => '[' :: join [',', ' '] (compactItems xs) ++ [']']
  | .record es => '{' :: join [',', ' '] (compactMembers es) ++ ['}']

def compactItems : List Datum → List (List Char)
  | [] => []
  | x :: xs => compactChars x :: compactItems xs

def compactMembers : List (Datum × Datum) → List (List Char)
  | [] => []
  | (k, v) :: es => (keyChars k ++ ':' :: ' ' :: compactChars v) :: compactMembers es

end

def compact (d : Datum) : String := String.ofList (compactChars d)

/-- A line end and the blanks that start a line `level` steps in. -/
def lineStart (level : Nat) : List Char := '\n' :: List.replicate (2 * level) ' '

mutual

/-- A value spread over lines, two blanks to a level; what is empty stays on its line. -/
def spreadChars (level : Nat) : Datum → List Char
  | .list (x :: xs) =>
      '[' :: lineStart (level + 1)
        ++ join (',' :: lineStart (level + 1)) (spreadItems (level + 1) (x :: xs))
        ++ lineStart level ++ [']']
  | .record (e :: es) =>
      '{' :: lineStart (level + 1)
        ++ join (',' :: lineStart (level + 1)) (spreadMembers (level + 1) (e :: es))
        ++ lineStart level ++ ['}']
  | d => compactChars d

def spreadItems (level : Nat) : List Datum → List (List Char)
  | [] => []
  | x :: xs => spreadChars level x :: spreadItems level xs

def spreadMembers (level : Nat) : List (Datum × Datum) → List (List Char)
  | [] => []
  | (k, v) :: es => (keyChars k ++ ':' :: ' ' :: spreadChars level v) :: spreadMembers level es

end

def spread (d : Datum) : String := String.ofList (spreadChars 0 d)

end Perception.Json
