import Perception.Json.Syntax
import Perception.Number.Read
import Perception.Text.Utf8

set_option autoImplicit false

/-! # Tokens of a JSON text

A text is cut into tokens from left to right. Cutting never fails: a character that starts no token
becomes a `stray` one and a text without a good end a `brokenText`, and it is the reader's business
whether it ever gets there. Each token carries the number of characters from its start to the end
of the text, which is what a fault reports.

Beside the numbers of the standard, the names `NaN`, `Infinity` and `-Infinity` are numbers.
-/

namespace Perception.Json

inductive Lexeme
  | openList
  | closeList
  | openRecord
  | closeRecord
  | comma
  | colon
  | text (cs : List Char)
  | atom (d : Datum)
  | longNumber
  | stray
  | brokenText (cause : Cause) (rest : Nat)

/-- A token and the number of characters from its start to the end of the text. -/
structure Token where
  lexeme : Lexeme
  rest : Nat

/-- The four characters between which no token stands. -/
def isSpace (c : Char) : Bool := c = ' ' || c = '\t' || c = '\n' || c = '\r'

def hex4? (a b c d : Char) : Option Nat := do
  let a ← Bytes.hexValue? a
  let b ← Bytes.hexValue? b
  let c ← Bytes.hexValue? c
  let d ← Bytes.hexValue? d
  some (((a * 16 + b) * 16 + c) * 16 + d)

/-- The character that a one-letter escape stands for. -/
def escaped? (c : Char) : Option Nat :=
  match c with
  | '"' => some 0x22
  | '\\' => some 0x5c
  | '/' => some 0x2f
  | 'b' => some 8
  | 'f' => some 0xc
  | 'n' => some 0xa
  | 'r' => some 0xd
  | 't' => some 9
  | _ => none

/-- Half of a pair that stands for one character beyond the first plane: the first half. -/
def isHighHalf (n : Nat) : Bool := 0xD800 ≤ n && n < 0xDC00

def isLowHalf (n : Nat) : Bool := 0xDC00 ≤ n && n < 0xE000

/-- Joins halves that stand side by side; a half on its own reads as the replacement character. -/
def joinHalves : List Nat → List Char
  | [] => []
  | a :: b :: rest =>
      if isHighHalf a && isLowHalf b then
        Char.ofNat (0x10000 + (a - 0xD800) * 0x400 + (b - 0xDC00)) :: joinHalves rest
      else if isHighHalf a || isLowHalf a then Char.ofNat 0xFFFD :: joinHalves (b :: rest)
      else Char.ofNat a :: joinHalves (b :: rest)
  | [a] => if isHighHalf a || isLowHalf a then [Char.ofNat 0xFFFD] else [Char.ofNat a]

/-- Reads the inside of a text up to its closing quote: the code points and what follows the quote,
or a cause and the number of characters left where it applies. `start` is that number at the opening
quote. -/
def textBody (start : Nat) : List Char → Except (Cause × Nat) (List Nat × List Char)
  | [] => .error (.unterminatedText, start)
  | '"' :: rest => .ok ([], rest)
  | ['\\'] => .error (.unterminatedText, start)
  | '\\' :: 'u' :: rest =>
      match rest with
      | a :: b :: c :: d :: e :: more =>
          match hex4? a b c d with
          | none => .error (.unicodeEscape, rest.length + 1)
          | some n => (textBody start (e :: more)).map fun (ns, after) => (n :: ns, after)
      | _ => .error (.unicodeEscape, rest.length + 1)
  | '\\' :: c :: rest =>
      match escaped? c with
      | none => .error (.escape, rest.length + 2)
      | some n => (textBody start rest).map fun (ns, after) => (n :: ns, after)
  | c :: rest =>
      if c.toNat < 0x20 then .error (.controlCharacter, rest.length + 1)
      else (textBody start rest).map fun (ns, after) => (c.toNat :: ns, after)

def isDigit (c : Char) : Bool := '0' ≤ c && c ≤ '9'

def ofDigits (ds : List Char) : Nat := ds.foldl (fun n c => n * 10 + (c.toNat - 48)) 0

/-- The whole part of a number: a zero alone or digits that start with none. -/
def wholePart : List Char → List Char × List Char
  | '0' :: rest => (['0'], rest)
  | cs => (cs.takeWhile isDigit, cs.dropWhile isDigit)

/-- The places after the point, none if no digit follows the point. -/
def placesPart : List Char → List Char × List Char
  | '.' :: c :: rest =>
      if isDigit c then (c :: rest.takeWhile isDigit, rest.dropWhile isDigit)
      else ([], '.' :: c :: rest)
  | cs => ([], cs)

/-- The exponent of a number, `none` if no whole one stands here. -/
def exponentPart : List Char → Option Int × List Char
  | [] => (none, [])
  | e :: rest =>
      if e = 'e' ∨ e = 'E' then
        let (negative, body) := match rest with
          | '-' :: more => (true, more)
          | '+' :: more => (false, more)
          | _ => (false, rest)
        let ds := body.takeWhile isDigit
        if ds.isEmpty then (none, e :: rest)
        else
          let n : Int := ofDigits ds
          (some (if negative then -n else n), body.dropWhile isDigit)
      else (none, e :: rest)

/-- A number without its sign, and what follows it. -/
def number? (negative : Bool) (cs : List Char) : Option (Lexeme × List Char) :=
  let (whole, rest) := wholePart cs
  if whole.isEmpty then none
  else
    let (places, rest) := placesPart rest
    let (exponent, rest) := exponentPart rest
    if places.isEmpty && exponent.isNone then
      if whole.length > Number.maxDigits then some (.longNumber, rest)
      else
        let n : Int := ofDigits whole
        some (.atom (.int (if negative then -n else n)), rest)
    else
      let x := Number.ofDecimal (ofDigits (whole ++ places)) (exponent.getD 0 - places.length)
      some (.atom (.float (if negative then -x else x)), rest)

def names : List (List Char × Datum) := [
  ("null".toList, .null), ("true".toList, .bool true), ("false".toList, .bool false),
  ("NaN".toList, .float (0.0 / 0.0)), ("Infinity".toList, .float (1.0 / 0.0)),
  ("-Infinity".toList, .float (-1.0 / 0.0))]

def name? (cs : List Char) : Option (Lexeme × List Char) :=
  names.findSome? fun (name, d) => (Text.after? name cs).map fun rest => (.atom d, rest)

/-- The first token of `c :: cs`, where `c` is no space, and what follows it. -/
def first (c : Char) (cs : List Char) : Lexeme × List Char :=
  match c with
  | '[' => (.openList, cs)
  | ']' => (.closeList, cs)
  | '{' => (.openRecord, cs)
  | '}' => (.closeRecord, cs)
  | ',' => (.comma, cs)
  | ':' => (.colon, cs)
  | '"' =>
      match textBody (cs.length + 1) cs with
      | .ok (ns, rest) => (.text (joinHalves ns), rest)
      | .error (cause, rest) => (.brokenText cause rest, [])
  | _ =>
      let number := if c = '-' then number? true cs else number? false (c :: cs)
      (number.orElse fun _ => name? (c :: cs)).getD (.stray, cs)

/-- The tokens of a text, `fuel` being at least its length. Nothing is cut after a token that no
document holds. -/
def tokensFrom : Nat → List Char → List Token
  | 0, _ => []
  | _, [] => []
  | fuel + 1, c :: cs =>
      if isSpace c then tokensFrom fuel cs
      else
        let (lexeme, rest) := first c cs
        ⟨lexeme, cs.length + 1⟩ :: (match lexeme with
          | .stray => []
          | .brokenText _ _ => []
          | _ => tokensFrom fuel rest)

def tokens (cs : List Char) : List Token := tokensFrom cs.length cs

end Perception.Json
