import Perception.Datum

set_option autoImplicit false

/-! # Faults of a JSON text

Why a text is no JSON document, and where: the reader reports the first place at which the text
cannot go on. `SyntaxFault.message` words it with line, column and offset, all in characters.
-/

namespace Perception.Json

inductive Cause
  | expectingValue
  | expectingName
  | expectingColon
  | expectingComma
  | unterminatedText
  | controlCharacter
  | escape
  | unicodeEscape
  | extraData
  | byteOrderMark
  deriving DecidableEq, Repr

def Cause.message : Cause → String
  | expectingValue => "Expecting value"
  | expectingName => "Expecting property name enclosed in double quotes"
  | expectingColon => "Expecting ':' delimiter"
  | expectingComma => "Expecting ',' delimiter"
  | unterminatedText => "Unterminated string starting at"
  | controlCharacter => "Invalid control character at"
  | escape => "Invalid \\escape"
  | unicodeEscape => "Invalid \\uXXXX escape"
  | extraData => "Extra data"
  | byteOrderMark => "Unexpected UTF-8 BOM (decode using utf-8-sig)"

/-- Why a text is not read: it breaks the grammar at an offset, a whole number in it has too many
digits, or it is nested too deeply. -/
inductive Fault
  | malformed (cause : Cause) (line column offset : Nat)
  | tooManyDigits
  | tooDeep
  deriving DecidableEq, Repr

/-- A fault `rest` characters before the end of a text. -/
def Fault.at (text : List Char) (cause : Cause) (rest : Nat) : Fault :=
  let offset := text.length - rest
  let before := text.take offset
  let sinceLine := (before.reverse.takeWhile (· ≠ '\n')).length
  .malformed cause (before.count '\n' + 1) (sinceLine + 1) offset

def Fault.message : Fault → Option String
  | .malformed cause line column offset =>
      some (cause.message ++ ": line " ++ toString line ++ " column " ++ toString column
        ++ " (char " ++ toString offset ++ ")")
  | .tooManyDigits => none
  | .tooDeep => none

end Perception.Json
