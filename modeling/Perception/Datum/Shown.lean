import Perception.Number.Written
import Perception.Text.Quoted
import Perception.Datum

set_option autoImplicit false

/-! # Loose data inside messages

How a value is shown in a message: a text as it is (`Datum.shown`), but between quotes where it
stands in a list or a record (`Datum.quotedForm`).
-/

namespace Perception.Datum

mutual

/-- A value as it stands inside another one. -/
def quotedForm : Datum → String
  | null => "None"
  | bool b => if b then "True" else "False"
  | int i => Number.intText i
  | float x => Number.text x
  | text s => Text.quoted s
  | foreign _ s => s
  | list xs => "[" ++ ", ".intercalate (quotedItems xs) ++ "]"
  | record es => "\x7b" ++ ", ".intercalate (quotedEntries es) ++ "\x7d"

def quotedItems : List Datum → List String
  | [] => []
  | x :: xs => quotedForm x :: quotedItems xs

def quotedEntries : List (Datum × Datum) → List String
  | [] => []
  | (k, v) :: es => (quotedForm k ++ ": " ++ quotedForm v) :: quotedEntries es

end

/-- A value as a message shows it. -/
def shown : Datum → String
  | text s => s
  | d => quotedForm d

end Perception.Datum
