import Perception.Yaml.Scalar

set_option autoImplicit false

/-! # Tokens of a settings file

A text as a list of tokens (`Yaml.tokens`): indentation becomes pairs of start and end tokens, and a
scalar that turns out to be a key, because a colon follows on its line, gets a key token in front.
Where the text cannot go on, the list ends with the fault (`Token.broken`).
-/

namespace Perception.Yaml

inductive Directive
  | version (major : Nat)
  | handle (name value : List Char)
  | other
  deriving DecidableEq

/-- The parts of a text that the grammar is about. -/
inductive Token
  | directive (d : Directive)
  | documentStart
  | documentEnd
  | streamEnd
  | blockSequenceStart
  | blockMappingStart
  | blockEnd
  | flowSequenceStart
  | flowSequenceEnd
  | flowMappingStart
  | flowMappingEnd
  | flowEntry
  | blockEntry
  | key
  | value
  | alias (name : List Char)
  | anchor (name : List Char)
  | tag (handle : Option (List Char)) (suffix : List Char)
  | scalar (text : List Char) (plain : Bool)
  | broken (f : Fault)
  deriving DecidableEq

/-- A place where a key may have begun: the number of its token, whether there must be a key, and
where it stands. -/
structure PossibleKey where
  token : Nat
  isRequired : Bool
  index : Nat
  line : Nat
  column : Nat

/-- A text half cut into tokens. -/
structure Cutter where
  cursor : Cursor
  tokens : Array Token
  /-- How many brackets are open. -/
  level : Nat
  /-- The column of the innermost block, and those of the blocks around it. -/
  indent : Int
  indents : List Int
  keyAllowed : Bool
  /-- The possible keys, by the number of open brackets. -/
  keys : List (Nat × PossibleKey)
  done : Bool

namespace Cutter

def start (cs : List Char) : Cutter := ⟨.start cs, #[], 0, -1, [], true, [], false⟩

def push (s : Cutter) (t : Token) (c : Cursor) : Cutter :=
  { s with tokens := s.tokens.push t, cursor := c }

def maxKeyLength : Nat := 1024

/-- Forgets the possible keys that the text has moved away from. -/
def dropStale (s : Cutter) : Except Fault Cutter :=
  let stale (k : PossibleKey) : Bool :=
    k.line ≠ s.cursor.line || s.cursor.index > k.index + maxKeyLength
  if s.keys.any fun (_, k) => stale k && k.isRequired then .error .malformed
  else .ok { s with keys := s.keys.filter fun (_, k) => !stale k }

def dropKey (s : Cutter) : Except Fault Cutter :=
  if s.keys.any fun (l, k) => l = s.level && k.isRequired then .error .malformed
  else .ok { s with keys := s.keys.filter fun (l, _) => l ≠ s.level }

def saveKey (s : Cutter) : Except Fault Cutter :=
  if s.keyAllowed then do
    let s ← s.dropKey
    let k : PossibleKey :=
      ⟨s.tokens.size, s.level = 0 && s.indent = s.cursor.column, s.cursor.index, s.cursor.line,
        s.cursor.column⟩
    .ok { s with keys := (s.level, k) :: s.keys }
  else .ok s

/-- Ends the blocks that are indented by more than `column`. -/
def unwind (column : Int) : Nat → Cutter → Cutter
  | 0, s => s
  | fuel + 1, s =>
      if s.level = 0 ∧ column < s.indent then
        unwind column fuel
          { s with
            indent := s.indents.headD (-1), indents := s.indents.tail
            tokens := s.tokens.push .blockEnd }
      else s

def unwindTo (column : Int) (s : Cutter) : Cutter := unwind column (s.indents.length + 1) s

/-- Opens a block at a column, if the innermost one stands further left. Its token goes to place
`at`. -/
def openBlock (s : Cutter) (column : Nat) (t : Token) (place : Nat) : Cutter :=
  if s.indent < column then
    { s with
      indents := s.indent :: s.indents, indent := column
      tokens := (s.tokens.toList.take place ++ t :: s.tokens.toList.drop place).toArray }
  else s

def skipToToken : Nat → Cutter → Cutter
  | 0, s => s
  | fuel + 1, s =>
      let c := s.cursor.skipBlanks.skipComment
      if isBreak c.peek then
        skipToToken fuel
          { s with cursor := c.lineBreak.2, keyAllowed := s.keyAllowed || s.level = 0 }
      else { s with cursor := c }

/-- Ends all blocks and forgets possible keys, in front of what stands outside a document. -/
def leaveDocument (s : Cutter) : Except Fault Cutter := do
  let s ← (s.unwindTo (-1)).dropKey
  .ok { s with keyAllowed := false }

/-! ## Directives, names and tags -/

/-- The end of a line or a blank that is no tab. -/
def isPlainGap (c : Char) : Bool := isLineEnd c || c = ' '

def number (c : Cursor) : Except Fault (Nat × Cursor) :=
  let (ds, c) := c.takeWhile fun ch => '0' ≤ ch && ch ≤ '9'
  if ds.isEmpty then .error .malformed
  else .ok (Text.ofDigitValues 10 (ds.map fun d => d.toNat - 48), c)

/-- The bytes of a run of escapes by percent signs. -/
def escapedBytes : Nat → Cursor → Except Fault (Bytes × Cursor)
  | 0, c => .ok ([], c)
  | fuel + 1, c =>
      if c.peek = '%' then
        match Bytes.hexValue? (c.peekAt 1), Bytes.hexValue? (c.peekAt 2) with
        | some a, some b => do
            let (bs, c) ← escapedBytes fuel (c.advance 3)
            .ok (UInt8.ofNat (a * 16 + b) :: bs, c)
        | _, _ => .error .malformed
      else .ok ([], c)

/-- The characters of tags besides those of names. -/
def isTagMark (c : Char) : Bool := ";/?:@&=+$,.!~*'()[]".toList.contains c

def tagText : Nat → Cursor → Except Fault (List Char × Cursor)
  | 0, c => .ok ([], c)
  | fuel + 1, c =>
      if c.peek = '%' then do
        let (bs, c) ← escapedBytes (c.rest.length + 1) c
        match Utf8.decode? bs with
        | none => .error .malformed
        | some cs => do
            let (more, c) ← tagText fuel c
            .ok (cs ++ more, c)
      else if isWord c.peek || isTagMark c.peek then do
        let (more, d) ← tagText fuel c.forward
        .ok (c.peek :: more, d)
      else .ok ([], c)

def tagUri (c : Cursor) : Except Fault (List Char × Cursor) := do
  let (cs, c) ← tagText (c.rest.length + 1) c
  if cs.isEmpty then .error .malformed else .ok (cs, c)

/-- A handle of tags: an exclamation mark, or a name between two. -/
def tagHandle (c : Cursor) : Except Fault (List Char × Cursor) :=
  if c.peek ≠ '!' then .error .malformed
  else
    let (name, d) := c.forward.takeWhile isWord
    if c.peekAt 1 = ' ' then .ok (['!'], c.forward)
    else if d.peek = '!' then .ok ('!' :: name ++ ['!'], d.forward)
    else .error .malformed

def directive (c : Cursor) : Except Fault (Directive × Cursor) := do
  let (name, c) := c.forward.takeWhile isWord
  if name.isEmpty ∨ !isPlainGap c.peek then throw .malformed
  let (d, c) ←
    if name = "YAML".toList then do
      let (major, c) ← number c.skipBlanks
      if c.peek ≠ '.' then throw .malformed
      let (_, c) ← number c.forward
      if !isPlainGap c.peek then throw .malformed
      pure (Directive.version major, c)
    else if name = "TAG".toList then do
      let (handle, c) ← tagHandle c.skipBlanks
      if c.peek ≠ ' ' then throw .malformed
      let (value, c) ← tagUri c.skipBlanks
      if !isPlainGap c.peek then throw .malformed
      pure (Directive.handle handle value, c)
    else pure (Directive.other, c.skipWhile fun ch => !isLineEnd ch)
  return (d, ← c.endLine)

def markedName (c : Cursor) : Except Fault (List Char × Cursor) :=
  let (name, c) := c.forward.takeWhile isWord
  let mayFollow := isGap c.peek || "?:,]\x7d%@\x60".toList.contains c.peek
  if name.isEmpty ∨ !mayFollow then .error .malformed
  else .ok (name, c)

/-- Does an exclamation mark follow before a blank or the end of the line? -/
def hasHandle (c : Cursor) : Bool :=
  (c.forward.takeWhile fun ch => !isPlainGap ch).1.contains '!'

def tagToken (c : Cursor) : Except Fault (Token × Cursor) := do
  let (t, c) ←
    if c.peekAt 1 = '<' then do
      let (suffix, c) ← tagUri (c.advance 2)
      if c.peek ≠ '>' then throw .malformed
      pure (Token.tag none suffix, c.forward)
    else if isGap (c.peekAt 1) then pure (Token.tag none ['!'], c.forward)
    else do
      let (handle, c) ← if hasHandle c then tagHandle c else pure (['!'], c.forward)
      let (suffix, c) ← tagUri c
      pure (Token.tag (some handle) suffix, c)
  if !isPlainGap c.peek then throw .malformed
  return (t, c)

/-! ## One token after another -/

def documentMark (s : Cutter) (t : Token) : Except Fault Cutter := do
  let s ← s.leaveDocument
  .ok (s.push t (s.cursor.advance 3))

def openBracket (s : Cutter) (t : Token) : Except Fault Cutter := do
  let s ← s.saveKey
  .ok { s.push t s.cursor.forward with level := s.level + 1, keyAllowed := true }

def closeBracket (s : Cutter) (t : Token) : Except Fault Cutter := do
  let s ← s.dropKey
  if s.level = 0 then throw .malformed
  .ok { s.push t s.cursor.forward with level := s.level - 1, keyAllowed := false }

/-- A mark that starts an entry or a key of a block; within brackets it opens none. -/
def blockMark (s : Cutter) (opening t : Token) (keyAfter : Bool) : Except Fault Cutter := do
  if s.level = 0 ∧ !s.keyAllowed then throw .malformed
  let s := if s.level = 0 then s.openBlock s.cursor.column opening s.tokens.size else s
  let s ← { s with keyAllowed := keyAfter }.dropKey
  .ok (s.push t s.cursor.forward)

/-- A colon in front of a value: what stands before it may turn out to be a key. -/
def valueMark (s : Cutter) : Except Fault Cutter := do
  match s.keys.find? fun (l, _) => l = s.level with
  | some (_, k) =>
      let s := { s with
        keys := s.keys.filter fun (l, _) => l ≠ s.level
        tokens :=
          (s.tokens.toList.take k.token ++ Token.key :: s.tokens.toList.drop k.token).toArray }
      let s := if s.level = 0 then s.openBlock k.column .blockMappingStart k.token else s
      .ok { s.push .value s.cursor.forward with keyAllowed := false }
  | none => s.blockMark .blockMappingStart .value (s.level = 0)

/-- A token that a key may begin with, read by `read`. -/
def keyLike (s : Cutter) (read : Cursor → Except Fault (Token × Cursor)) : Except Fault Cutter := do
  let s ← s.saveKey
  let (t, c) ← read s.cursor
  .ok { s.push t c with keyAllowed := false }

/-- Does a plain scalar begin here? Most marks cannot be first, three of them can if no gap
follows. -/
def atPlain (s : Cutter) : Bool :=
  let ch := s.cursor.peek
  !(isGap ch || "-?:,[]{}#&*!|>'\"%@`".toList.contains ch)
    || (!isGap (s.cursor.peekAt 1) && (ch = '-' || (s.level = 0 && (ch = '?' || ch = ':'))))

/-- Reads the next token, with the ends of blocks in front of it. -/
def step (s : Cutter) : Except Fault Cutter := do
  let s ← (skipToToken (s.cursor.rest.length + 1) s).dropStale
  let s := s.unwindTo s.cursor.column
  let c := s.cursor
  let ch := c.peek
  let inBrackets : Bool := 0 < s.level
  let marks : Bool := inBrackets || isGap (c.peekAt 1)
  if ch = ending then do
    let s ← s.leaveDocument
    .ok { s.push .streamEnd c with done := true }
  else if ch = '%' ∧ c.column = 0 then do
    let s ← s.leaveDocument
    let (d, c) ← directive c
    .ok (s.push (.directive d) c)
  else if c.column = 0 ∧ c.atTriple '-' then s.documentMark .documentStart
  else if c.column = 0 ∧ c.atTriple '.' then s.documentMark .documentEnd
  else if ch = '[' then s.openBracket .flowSequenceStart
  else if ch = '{' then s.openBracket .flowMappingStart
  else if ch = ']' then s.closeBracket .flowSequenceEnd
  else if ch = '}' then s.closeBracket .flowMappingEnd
  else if ch = ',' then do
    let s ← { s with keyAllowed := true }.dropKey
    .ok (s.push .flowEntry c.forward)
  else if ch = '-' ∧ isGap (c.peekAt 1) then s.blockMark .blockSequenceStart .blockEntry true
  else if ch = '?' ∧ marks then s.blockMark .blockMappingStart .key (s.level = 0)
  else if ch = ':' ∧ marks then s.valueMark
  else if ch = '*' then s.keyLike fun c => (markedName c).map fun (n, c) => (.alias n, c)
  else if ch = '&' then s.keyLike fun c => (markedName c).map fun (n, c) => (.anchor n, c)
  else if ch = '!' then s.keyLike tagToken
  else if (ch = '|' ∨ ch = '>') ∧ !inBrackets then do
    let s ← { s with keyAllowed := true }.dropKey
    let (text, c) ← blockScalar s.indent s.cursor
    .ok (s.push (.scalar text false) c)
  else if ch = '\'' ∨ ch = '"' then
    s.keyLike fun c => (quotedScalar c).map fun (cs, c) => (.scalar cs false, c)
  else if s.atPlain then do
    let s ← s.saveKey
    let (text, ended, c) := plainScalar inBrackets (s.indent + 1) s.cursor
    .ok { s.push (.scalar text true) c with keyAllowed := ended }
  else .error .malformed

/-- All tokens from here on; each step but the last passes a character. -/
def run : Nat → Cutter → Array Token
  | 0, s => s.tokens.push (.broken .malformed)
  | fuel + 1, s =>
      match s.step with
      | .error f => s.tokens.push (.broken f)
      | .ok s => if s.done then s.tokens else run fuel s

end Cutter

/-- The tokens of a text. The last one is the end of the text or a fault. -/
def tokens (cs : List Char) : List Token :=
  if !cs.all isAdmitted then [.broken .malformed]
  else
    let s := Cutter.start cs
    let s := if s.cursor.peek = byteOrderMark then { s with cursor := s.cursor.forward } else s
    (s.run (cs.length + 2)).toList

end Perception.Yaml
