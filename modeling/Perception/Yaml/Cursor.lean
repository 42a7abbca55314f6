import Perception.Failure

set_option autoImplicit false

/-! # A place in a settings file

Settings are written in YAML, whose layout means something: a reader has to know in which column it
stands. A `Cursor` is what is left of a text together with the place it starts at. Line ends are
folded before (`Text.foldNewlines`), so the only ends met are `\n` and the vertical ones of Unicode.
-/

namespace Perception.Yaml

/-- Why a document is not read: it breaks the grammar, or a scalar has no value of its sort. -/
inductive Fault
  | malformed
  | unfit (kind : FailureKind)
  deriving DecidableEq, Repr

/-- What stands for the end of the text. No text holds this character. -/
def ending : Char := Char.ofNat 0

def isBreak (c : Char) : Bool :=
  c = '\n' || c.toNat = 0x85 || c.toNat = 0x2028 || c.toNat = 0x2029

def isLineEnd (c : Char) : Bool := isBreak c || c = ending

/-- What may follow an indicator: the end of a line, or a blank. -/
def isGap (c : Char) : Bool := isLineEnd c || c = ' ' || c = '\t'

def isWord (c : Char) : Bool :=
  ('0' ≤ c && c ≤ '9') || ('a' ≤ c && c ≤ 'z') || ('A' ≤ c && c ≤ 'Z') || c = '-' || c = '_'

/-- The mark that may open a text and takes up no column. -/
def byteOrderMark : Char := Char.ofNat 0xFEFF

def isAdmitted (c : Char) : Bool :=
  let n := c.toNat
  n = 9 || n = 10 || n = 13 || (0x20 ≤ n && n ≤ 0x7E) || n = 0x85 || (0xA0 ≤ n && n ≤ 0xFFFD)
    || 0x10000 ≤ n

/-- What is left of a text, and its place: characters and lines passed, and the column. -/
structure Cursor where
  rest : List Char
  index : Nat
  line : Nat
  column : Nat

namespace Cursor

def start (cs : List Char) : Cursor := ⟨cs, 0, 0, 0⟩

def peekAt (c : Cursor) (k : Nat) : Char := c.rest.getD k ending

def peek (c : Cursor) : Char := c.peekAt 0

def forward (c : Cursor) : Cursor :=
  match c.rest with
  | [] => c
  | ch :: rest =>
      if isBreak ch then ⟨rest, c.index + 1, c.line + 1, 0⟩
      else ⟨rest, c.index + 1, c.line, if ch = byteOrderMark then c.column else c.column + 1⟩

def advance (c : Cursor) : Nat → Cursor
  | 0 => c
  | n + 1 => c.forward.advance n

/-- The characters in front that satisfy `p`, and the place after them. -/
def takeWhile (p : Char → Bool) (c : Cursor) : List Char × Cursor :=
  let cs := c.rest.takeWhile p
  (cs, c.advance cs.length)

def skipWhile (p : Char → Bool) (c : Cursor) : Cursor := (c.takeWhile p).2

def skipBlanks (c : Cursor) : Cursor := c.skipWhile (· = ' ')

def skipComment (c : Cursor) : Cursor :=
  if c.peek = '#' then c.skipWhile fun ch => !isLineEnd ch else c

/-- Passes the end of a line if one stands here. Gives what it counts for in a scalar. -/
def lineBreak (c : Cursor) : List Char × Cursor :=
  let ch := c.peek
  if ch = '\n' ∨ ch.toNat = 0x85 then (['\n'], c.forward)
  else if isBreak ch then ([ch], c.forward)
  else ([], c)

/-- Passes blanks, a comment and the end of the line; anything else is a fault. -/
def endLine (c : Cursor) : Except Fault Cursor :=
  let c := c.skipBlanks.skipComment
  if isLineEnd c.peek then .ok c.lineBreak.2 else .error .malformed

/-- Do three times the character `ch`, and then a gap, stand here? -/
def atTriple (c : Cursor) (ch : Char) : Bool :=
  c.peek = ch && c.peekAt 1 = ch && c.peekAt 2 = ch && isGap (c.peekAt 3)

/-- Does the mark of a document's start or end stand here? -/
def atSeparator (c : Cursor) : Bool := c.atTriple '-' || c.atTriple '.'

end Cursor

end Perception.Yaml
