import Perception.Datum
import Perception.Text.Blank
import Perception.Text.Digit
import Perception.Text.Quoted

set_option autoImplicit false

/-! # Words of a command line

What each word of a command line is: a plain word, a switch, or the mark after which all words are
plain. A switch may be cut short as long as only one has that beginning, and may have its value
behind an equals sign (`Word.ofString`).
-/

namespace Perception.CommandLine

/-- What a switch does: it asks for help, or stores the value that follows under a key. -/
inductive Effect
  | help
  | store (key : String) (read : String → Except String Datum)

structure Switch where
  names : List String
  effect : Effect
  required : Bool
  default : Datum

/-- The switches there are, and the key of the list of plain words, if there may be any. -/
structure Grammar where
  switches : List Switch
  plainKey : Option String

/-- Why the words are not acted on: help was asked for, or they are refused. -/
inductive Stop
  | help
  | refused (reason : String)
  deriving DecidableEq, Repr

def Stop.message : Stop → Option String
  | .help => none
  | .refused reason => some s!"error: {reason}"

/-- What a word is. A switch has the name that was meant and the value given with it; one that there
is not has none of these. -/
inductive Word
  | plain (text : String)
  | separator
  | switch (text : String) (found : Option (Switch × String × Option String))

namespace Switch

def title (s : Switch) : String := "/".intercalate s.names

def refuse {α : Type} (s : Switch) (reason : String) : Except Stop α :=
  .error (.refused s!"argument {s.title}: {reason}")

end Switch

namespace Grammar

def find? (g : Grammar) (name : String) : Option Switch :=
  g.switches.find? fun s => s.names.contains name

def names (g : Grammar) : List (Switch × String) :=
  g.switches.flatMap fun s => s.names.map fun n => (s, n)

def cutValue (word : List Char) : List Char × Option String :=
  match Text.cutAt? (· = '=') word with
  | some (name, value) => (name, some (String.ofList value))
  | none => (word, none)

/-- The switches that a word may mean, with the value given in it. -/
def meanings (g : Grammar) (word : List Char) : List (Switch × String × Option String) :=
  match word with
  | '-' :: '-' :: _ =>
      let (start, value) := cutValue word
      g.names.filterMap fun (s, n) =>
        if start.isPrefixOf n.toList then some (s, n, value) else none
  | _ =>
      let short := String.ofList (word.take 2)
      g.names.filterMap fun (s, n) =>
        if n = short then some (s, n, some (String.ofList (word.drop 2)))
        else if word.isPrefixOf n.toList then some (s, n, none)
        else none

end Grammar

namespace Word

def isNegative (word : List Char) : Bool :=
  let isDigit (c : Char) : Bool := (Text.decimalDigit? c).isSome
  let body := if word.getLast? = some '\n' then word.dropLast else word
  match body with
  | '-' :: cs =>
      match Text.cutAt? (· = '.') cs with
      | some (whole, places) => whole.all isDigit && !places.isEmpty && places.all isDigit
      | none => !cs.isEmpty && cs.all isDigit
  | _ => false

/-- The mark after which all words are plain. -/
def mark : String := "--"

/-- What a word is that stands before the mark. -/
def ofString (g : Grammar) (text : String) : Except Stop Word :=
  let cs := text.toList
  if cs.head? ≠ some '-' then .ok (plain text)
  else match g.find? text with
    | some s => .ok (switch text (some (s, text, none)))
    | none =>
        let (name, value) := Grammar.cutValue cs
        let name := String.ofList name
        match value, g.find? name with
        | some v, some s => .ok (switch text (some (s, name, some v)))
        | _, _ =>
            if cs.length = 1 then .ok (plain text)
            else match g.meanings cs with
              | [found] => .ok (switch text (some found))
              | [] =>
                  if isNegative cs || cs.contains ' ' then .ok (plain text)
                  else .ok (switch text none)
              | several =>
                  let names := ", ".intercalate (several.map fun m => m.2.1)
                  .error (.refused s!"ambiguous option: {text} could match {names}")

def ofStrings (g : Grammar) : List String → Except Stop (List Word)
  | [] => .ok []
  | text :: rest =>
      if text = mark then .ok (separator :: rest.map plain)
      else do
        let word ← ofString g text
        return word :: (← ofStrings g rest)

def text? : Word → Option String
  | plain text => some text
  | separator => some mark
  | switch .. => none

def isPlain : Word → Bool
  | plain _ => true
  | _ => false

end Word

end Perception.CommandLine
