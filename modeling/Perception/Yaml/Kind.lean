import Perception.Number.Read
import Perception.Yaml.Cursor

set_option autoImplicit false

/-! # What a plain scalar is taken for

A scalar that is neither quoted nor declared to be of some kind is taken for what it looks like
(`Kind.ofPlain`): a truth value, a number, a date, nothing, or else a text. `Kind.ofTag` is the kind
that a declaration names.
-/

namespace Perception.Yaml

inductive Kind
  | null | bool | int | float | text | binary | timestamp
  | list | record | pairs | set
  /-- The key under which entries of other records are taken over. -/
  | merge
  /-- The key under which a record keeps the value it stands for as a scalar. -/
  | standIn
  /-- A list or record that is named within itself. -/
  | enclosing
  | unknown
  deriving DecidableEq, Repr

namespace Kind

/-- What the common tags start with. -/
def commonHead : String := "tag:yaml.org,2002:"

def ofTag (tag : List Char) : Kind :=
  let names : List (String × Kind) :=
    [("null", null), ("bool", bool), ("int", int), ("float", float), ("str", text),
      ("binary", binary), ("timestamp", timestamp), ("seq", list), ("map", record),
      ("omap", pairs), ("pairs", pairs), ("set", set), ("merge", merge), ("value", standIn)]
  ((names.find? fun (n, _) => tag = commonHead.toList ++ n.toList).map Prod.snd).getD unknown

def isDigit (c : Char) : Bool := '0' ≤ c && c ≤ '9'

def isDigitOrLow (c : Char) : Bool := isDigit c || c = '_'

/-- A digit and more digits or underscores. -/
def isRun : List Char → Bool
  | c :: rest => isDigit c && rest.all isDigitOrLow
  | [] => false

/-- Digits and underscores of which the first is not zero. -/
def isPositiveRun : List Char → Bool
  | c :: rest => isDigit c && c ≠ '0' && rest.all isDigitOrLow
  | [] => false

/-- A text without its sign. -/
def unsigned : List Char → List Char
  | '-' :: rest => rest
  | '+' :: rest => rest
  | cs => cs

/-- A number below sixty, of one or two digits. -/
def isSixtieth : List Char → Bool
  | [a] => isDigit a
  | [a, b] => '0' ≤ a && a ≤ '5' && isDigit b
  | _ => false

/-- An exponent with a sign, or nothing. -/
def isExponent : List Char → Bool
  | [] => true
  | e :: s :: ds =>
      (e = 'e' || e = 'E') && (s = '-' || s = '+') && !ds.isEmpty && ds.all isDigit
  | _ => false

def looksBool (cs : List Char) : Bool :=
  ["yes", "Yes", "YES", "no", "No", "NO", "true", "True", "TRUE", "false", "False", "FALSE", "on",
    "On", "ON", "off", "Off", "OFF"].contains (String.ofList cs)

/-- Does the text look like a whole number: in base two, eight, ten, sixteen or sixty? -/
def looksInt (cs : List Char) : Bool :=
  let body := unsigned cs
  (match body with
    | '0' :: 'b' :: ds => !ds.isEmpty && ds.all fun c => c = '0' || c = '1' || c = '_'
    | '0' :: 'x' :: ds =>
        !ds.isEmpty && ds.all fun c =>
          isDigitOrLow c || ('a' ≤ c && c ≤ 'f') || ('A' ≤ c && c ≤ 'F')
    | '0' :: ds => ds.all fun c => ('0' ≤ c && c ≤ '7') || c = '_'
    | ds => isPositiveRun ds)
  || (match Text.splitAt (· = ':') body with
    | first :: p :: ps => isPositiveRun first && (p :: ps).all isSixtieth
    | _ => false)

/-- Does the text look like a fraction? It has a point, and an exponent only with a sign. -/
def looksFloat (cs : List Char) : Bool :=
  let body := unsigned cs
  let isTail (ds : List Char) : Bool := isExponent (ds.dropWhile isDigitOrLow)
  (match Text.cutAt? (· = '.') body with
    | some (whole, rest) =>
        (isRun whole && isTail rest)
        || (whole.isEmpty && body = cs && (rest.head?.map isDigit).getD false && isTail rest)
        || (rest.all isDigitOrLow && match Text.splitAt (· = ':') whole with
          | first :: p :: ps => isRun first && (p :: ps).all isSixtieth
          | _ => false)
    | none => false)
  || [".inf", ".Inf", ".INF"].contains (String.ofList body)
  || [".nan", ".NaN", ".NAN"].contains (String.ofList cs)

end Kind

/-! ## Dates -/

/-- A date with a time of day in some zone, if it has one. -/
structure Stamp where
  year : Nat
  month : Nat
  day : Nat
  /-- Month and day have two digits each. -/
  padded : Bool
  clock : Option (Nat × Nat × Nat × List Char)
  /-- The distance of the zone in minutes, if a zone is named; universal time has none. -/
  zone : Option (Option Int)

namespace Stamp

/-- A number of `least` to `most` digits, and what follows. -/
def digits? (least most : Nat) (cs : List Char) : Option (Nat × Nat × List Char) :=
  let ds := (cs.take most).takeWhile Kind.isDigit
  if ds.length < least then none
  else some (Text.ofDigitValues 10 (ds.map fun d => d.toNat - 48), ds.length, cs.drop ds.length)

/-- What follows a character that must stand in front. -/
def past? (c : Char) : List Char → Option (List Char)
  | d :: rest => if c = d then some rest else none
  | [] => none

def dropGap (cs : List Char) : List Char := cs.dropWhile fun c => c = ' ' || c = '\t'

def zone? (cs : List Char) : Option (Option (Option Int)) :=
  match cs, dropGap cs with
  | [], _ => some none
  | _, ['Z'] => some (some none)
  | _, s :: rest =>
      if s = '+' ∨ s = '-' then do
        let (h, _, rest) ← digits? 1 2 rest
        let m ← match rest with
          | [] => some 0
          | _ => do
              let rest ← past? ':' rest
              let (m, _, rest) ← digits? 2 2 rest
              if rest.isEmpty then some m else none
        let distance : Int := h * 60 + m
        some (some (some (if s = '-' then -distance else distance)))
      else none
  | _, [] => none

/-- The time of day and the zone behind a date. -/
def clock? (cs : List Char) : Option ((Nat × Nat × Nat × List Char) × Option (Option Int)) := do
  let rest ← match cs with
    | 'T' :: rest | 't' :: rest => some rest
    | ' ' :: _ | '\t' :: _ => some (dropGap cs)
    | _ => none
  let (h, _, rest) ← digits? 1 2 rest
  let (m, _, rest) ← digits? 2 2 (← past? ':' rest)
  let (s, _, rest) ← digits? 2 2 (← past? ':' rest)
  let (fraction, rest) := match rest with
    | '.' :: more => (more.takeWhile Kind.isDigit, more.dropWhile Kind.isDigit)
    | _ => ([], rest)
  let zone ← zone? rest
  some ((h, m, s, fraction), zone)

/-- The date that a text looks like, which need not be in the calendar. -/
def ofChars? (cs : List Char) : Option Stamp := do
  let (year, _, rest) ← digits? 4 4 cs
  let (month, mw, rest) ← digits? 1 2 (← past? '-' rest)
  let (day, dw, rest) ← digits? 1 2 (← past? '-' rest)
  match rest with
  | [] => some ⟨year, month, day, mw = 2 && dw = 2, none, none⟩
  | _ => do
      let (clock, zone) ← clock? rest
      some ⟨year, month, day, mw = 2 && dw = 2, some clock, zone⟩

def daysIn (year month : Nat) : Nat :=
  if month = 2 then
    (if year % 4 = 0 ∧ (year % 100 ≠ 0 ∨ year % 400 = 0) then 29 else 28)
  else if month = 4 ∨ month = 6 ∨ month = 9 ∨ month = 11 then 30 else 31

/-- Is there such a date, time and zone? -/
def isReal (s : Stamp) : Bool :=
  1 ≤ s.year && 1 ≤ s.month && s.month ≤ 12 && 1 ≤ s.day && s.day ≤ daysIn s.year s.month
    && (match s.clock with
      | some (h, m, sec, _) => h < 24 && m < 60 && sec < 60
      | none => true)
    && (match s.zone with
      | some (some d) => d.natAbs < 24 * 60
      | _ => true)

def pad (width n : Nat) : String :=
  let ds := Nat.toDigits 10 n
  String.ofList (List.replicate (width - ds.length) '0' ++ ds)

def text (s : Stamp) : String :=
  let date := pad 4 s.year ++ "-" ++ pad 2 s.month ++ "-" ++ pad 2 s.day
  match s.clock with
  | none => date
  | some (h, m, sec, fraction) =>
      let micros := (fraction ++ List.replicate 6 '0').take 6
      let zone := match s.zone with
        | none => ""
        | some none => "+00:00"
        | some (some d) =>
            (if d < 0 then "-" else "+") ++ pad 2 (d.natAbs / 60) ++ ":" ++ pad 2 (d.natAbs % 60)
      date ++ " " ++ pad 2 h ++ ":" ++ pad 2 m ++ ":" ++ pad 2 sec
        ++ (if micros.all (· = '0') then "" else "." ++ String.ofList micros) ++ zone

end Stamp

namespace Kind

/-- Does the text look like a date? A date without a time has two digits for month and day. -/
def looksStamp (cs : List Char) : Bool :=
  match Stamp.ofChars? cs with
  | some s => s.padded || s.clock.isSome
  | none => false

def ofPlain (cs : List Char) : Kind :=
  if looksBool cs then bool
  else if looksFloat cs then float
  else if looksInt cs then int
  else if cs = ['<', '<'] then merge
  else if ["~", "null", "Null", "NULL", ""].contains (String.ofList cs) then null
  else if looksStamp cs then timestamp
  else if cs = ['='] then standIn
  else text

end Kind

end Perception.Yaml
