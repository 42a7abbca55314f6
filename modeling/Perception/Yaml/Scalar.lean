import Perception.Text.Digit
import Perception.Text.Utf8
import Perception.Yaml.Cursor

set_option autoImplicit false

/-! # The texts of scalars

A scalar is written plainly, between quotes, or as a block whose lines stand below its mark. All
three fold lines: a single line end counts as a blank, and of several the first is dropped. Quoted
scalars have escapes, blocks choose what their last line end counts for (`Chomping`).
-/

namespace Perception.Yaml

open Cursor

/-! ## Plain scalars -/

/-- How many characters in front belong to a plain scalar. A colon ends it if a gap follows; within
brackets also the marks of brackets do, by themselves or after a colon. -/
def plainLength (inBrackets : Bool) : List Char → Nat
  | [] => 0
  | ch :: rest =>
      let next := rest.headD ending
      if isGap ch then 0
      else if ch = ':'
          && (isGap next || (inBrackets && [',', '[', ']', '{', '}'].contains next)) then 0
      else if inBrackets && [',', '?', '[', ']', '{', '}'].contains ch then 0
      else plainLength inBrackets rest + 1

/-- Passes blanks and line ends behind a line end, and gives what the line ends count for; `none` if
a document starts or ends in between. -/
def lineGap : Nat → Cursor → Option (List Char) × Cursor
  | 0, c => (some [], c)
  | fuel + 1, c =>
      if c.peek = ' ' then lineGap fuel c.forward
      else if isBreak c.peek then
        let (b, c) := c.lineBreak
        if c.atSeparator then (none, c)
        else
          let (bs, c) := lineGap fuel c
          (bs.map (b ++ ·), c)
      else (some [], c)

/-- What a line end and those after it count for: one alone is a blank. -/
def folded (first others : List Char) : List Char :=
  (if first ≠ ['\n'] then first else if others.isEmpty then [' '] else []) ++ others

/-- What stands between two parts of a plain scalar, whether a line ends there, and the place after
it. Nothing stands there if the scalar is at its end. -/
def plainGap (c : Cursor) : List Char × Bool × Cursor :=
  let (blanks, c) := c.takeWhile (· = ' ')
  if isBreak c.peek then
    let (b, c) := c.lineBreak
    if c.atSeparator then ([], true, c)
    else
      match lineGap (c.rest.length + 1) c with
      | (none, c) => ([], true, c)
      | (some bs, c) => (folded b bs, true, c)
  else (blanks, false, c)

/-- The parts of a plain scalar from one on, `gap` standing in front of it. Gives the text, whether
a line ended behind the last part, and the place after it. -/
def plainParts (inBrackets : Bool) (indent : Int) :
    Nat → List Char → Bool → Cursor → List Char × Bool × Cursor
  | 0, _, ended, c => ([], ended, c)
  | fuel + 1, gap, ended, c =>
      let n := plainLength inBrackets c.rest
      if c.peek = '#' ∨ n = 0 then ([], ended, c)
      else
        let part := gap ++ c.rest.take n
        let (gap, ended, c) := plainGap (c.advance n)
        if gap.isEmpty ∨ c.peek = '#' ∨ (!inBrackets ∧ (c.column : Int) < indent) then
          (part, ended, c)
        else
          let (more, ended, c) := plainParts inBrackets indent fuel gap ended c
          (part ++ more, ended, c)

/-- A plain scalar; on lines after its first it must stand at least at `indent`. -/
def plainScalar (inBrackets : Bool) (indent : Int) (c : Cursor) : List Char × Bool × Cursor :=
  plainParts inBrackets indent (c.rest.length + 1) [] false c

/-! ## Quoted scalars -/

/-- What a single character stands for behind a backslash. -/
def escaped? (c : Char) : Option Char :=
  match c with
  | '0' => some (Char.ofNat 0)
  | 'a' => some (Char.ofNat 7)
  | 'b' => some (Char.ofNat 8)
  | 't' | '\t' => some '\t'
  | 'n' => some '\n'
  | 'v' => some (Char.ofNat 11)
  | 'f' => some (Char.ofNat 12)
  | 'r' => some '\r'
  | 'e' => some (Char.ofNat 27)
  | ' ' => some ' '
  | '"' => some '"'
  | '\\' => some '\\'
  | '/' => some '/'
  | 'N' => some (Char.ofNat 0x85)
  | '_' => some (Char.ofNat 0xA0)
  | 'L' => some (Char.ofNat 0x2028)
  | 'P' => some (Char.ofNat 0x2029)
  | _ => none

/-- How many hexadecimal digits follow a letter behind a backslash. -/
def escapeWidth? (c : Char) : Option Nat :=
  match c with
  | 'x' => some 2
  | 'u' => some 4
  | 'U' => some 8
  | _ => none

def numberedChar (ds : List Char) : Except Fault Char :=
  match ds.mapM Bytes.hexValue? with
  | none => .error .malformed
  | some vs =>
      let n := Text.ofDigitValues 16 vs
      if n < 0x110000 then .ok (Char.ofNat n) else .error (.unfit .value)

/-- Passes line ends and the blanks in front of lines, and gives what the line ends count for. -/
def quotedBreaks : Nat → Cursor → Except Fault (List Char × Cursor)
  | 0, c => .ok ([], c)
  | fuel + 1, c =>
      if c.atSeparator then .error .malformed
      else
        let c := c.skipWhile fun ch => ch = ' ' || ch = '\t'
        if isBreak c.peek then do
          let (b, c) := c.lineBreak
          let (bs, c) ← quotedBreaks fuel c
          .ok (b ++ bs, c)
        else .ok ([], c)

/-- The rest of a quoted scalar up to its closing quote, and the place after it. -/
def quotedRest (double : Bool) : Nat → Cursor → Except Fault (List Char × Cursor)
  | 0, _ => .error .malformed
  | fuel + 1, c =>
      let go (cs : List Char) (c : Cursor) : Except Fault (List Char × Cursor) := do
        let (more, c) ← quotedRest double fuel c
        .ok (cs ++ more, c)
      let ch := c.peek
      if ch = '\'' ∧ !double then
        if c.peekAt 1 = '\'' then go ['\''] (c.advance 2) else .ok ([], c.forward)
      else if ch = '"' ∧ double then .ok ([], c.forward)
      else if ch = '\\' ∧ double then
        let c := c.forward
        let e := c.peek
        match escaped? e, escapeWidth? e with
        | some r, _ => go [r] c.forward
        | none, some n => do
            let c := c.forward
            let r ← numberedChar ((List.range n).map c.peekAt)
            go [r] (c.advance n)
        | none, none =>
            if isBreak e then do
              let (bs, c) ← quotedBreaks (c.rest.length + 1) c.lineBreak.2
              go bs c
            else .error .malformed
      else if ch = ending then .error .malformed
      else if isGap ch then do
        let (blanks, c) := c.takeWhile fun ch => ch = ' ' || ch = '\t'
        if c.peek = ending then .error .malformed
        else if isBreak c.peek then do
          let (b, c) := c.lineBreak
          let (bs, c) ← quotedBreaks (c.rest.length + 1) c
          go (folded b bs) c
        else go blanks c
      else go [ch] c.forward

def quotedScalar (c : Cursor) : Except Fault (List Char × Cursor) :=
  quotedRest (c.peek = '"') (c.rest.length + 1) c.forward

/-! ## Blocks -/

/-- What the line ends at the end of a block count for: only the last, none, or all. -/
inductive Chomping
  | clip | strip | keep
  deriving DecidableEq

def indentDigit? (c : Char) : Option Nat :=
  if '0' ≤ c ∧ c ≤ '9' then some (c.toNat - 48) else none

def chomping? (c : Char) : Option Chomping :=
  if c = '+' then some .keep else if c = '-' then some .strip else none

/-- The marks behind the mark of a block, in either order. -/
def blockHeader (c : Cursor) : Except Fault (Chomping × Option Nat × Cursor) := do
  let finish (k : Chomping) (n? : Option Nat) (c : Cursor) :
      Except Fault (Chomping × Option Nat × Cursor) :=
    if n? = some 0 ∨ !(isLineEnd c.peek ∨ c.peek = ' ') then .error .malformed else .ok (k, n?, c)
  match chomping? c.peek with
  | some k =>
      let c := c.forward
      match indentDigit? c.peek with
      | some n => finish k (some n) c.forward
      | none => finish k none c
  | none =>
      match indentDigit? c.peek with
      | some n =>
          let c := c.forward
          match chomping? c.peek with
          | some k => finish k (some n) c.forward
          | none => finish .clip (some n) c
      | none => finish .clip none c

def indentTo (indent : Nat) : Nat → Cursor → Cursor
  | 0, c => c
  | fuel + 1, c =>
      if c.column < indent ∧ c.peek = ' ' then indentTo indent fuel c.forward else c

/-- Passes empty lines and the indentation of the line after them, and gives what the line ends
count for. -/
def blockBreaks (indent : Nat) : Nat → Cursor → List Char × Cursor
  | 0, c => ([], c)
  | fuel + 1, c =>
      let c := indentTo indent indent c
      if isBreak c.peek then
        let (b, c) := c.lineBreak
        let (bs, c) := blockBreaks indent fuel c
        (b ++ bs, c)
      else ([], c)

/-- Passes empty lines in front of a block whose indentation is still to be found, which is the
furthest that any of these lines reaches, given `most` so far. -/
def findIndent : Nat → Nat → Cursor → List Char × Nat × Cursor
  | 0, most, c => ([], most, c)
  | fuel + 1, most, c =>
      if c.peek = ' ' then
        let c := c.forward
        findIndent fuel (max most c.column) c
      else if isBreak c.peek then
        let (b, c) := c.lineBreak
        let (bs, most, c) := findIndent fuel most c
        (b ++ bs, most, c)
      else ([], most, c)

/-- The lines of a block; `breaks` counts for the empty lines in front. -/
def blockLines (fold : Bool) (chomp : Chomping) (indent : Nat) :
    Nat → List Char → List Char → Cursor → List Char × Cursor
  | 0, _, _, c => ([], c)
  | fuel + 1, last, breaks, c =>
      let close : List Char × Cursor :=
        ((if chomp = .strip then [] else last) ++ (if chomp = .keep then breaks else []), c)
      if c.column = indent ∧ c.peek ≠ ending then
        let flush := !(c.peek = ' ' || c.peek = '\t')
        let (line, c) := c.takeWhile fun ch => !isLineEnd ch
        let (b, c) := c.lineBreak
        let (bs, c) := blockBreaks indent (c.rest.length + 1) c
        let between :=
          if c.column = indent ∧ c.peek ≠ ending then
            if fold && b = ['\n'] && flush && !(c.peek = ' ' || c.peek = '\t') then
              (if bs.isEmpty then [' '] else [])
            else b
          else []
        let (more, c) := blockLines fold chomp indent fuel b bs c
        (breaks ++ line ++ between ++ more, c)
      else close

def blockScalar (indent : Int) (c : Cursor) : Except Fault (List Char × Cursor) := do
  let fold : Bool := c.peek = '>'
  let (chomp, step?, c) ← blockHeader c.forward
  let c ← c.endLine
  let least := (max 1 (indent + 1)).toNat
  match step? with
  | some step =>
      let indent := least + step - 1
      let (bs, c) := blockBreaks indent (c.rest.length + 1) c
      return blockLines fold chomp indent (c.rest.length + 1) [] bs c
  | none =>
      let (bs, most, c) := findIndent (c.rest.length + 1) 0 c
      return blockLines fold chomp (max least most) (c.rest.length + 1) [] bs c

end Perception.Yaml
