import Perception.Yaml.Kind
import Perception.Yaml.Token

set_option autoImplicit false

/-! # The nodes of a settings file

Tokens grouped into scalars, lists and records, each of some kind, with aliases replaced by what
they stand for (`Node.ofTokens?`); an alias of a list or record that it is part of is left as a
scalar of its own kind. A text holds at most one document.
-/

namespace Perception.Yaml

/-- A value as it is written, with the kind it is declared or taken to be of. -/
inductive Node
  | scalar (kind : Kind) (text : List Char)
  | list (kind : Kind) (items : List Node)
  | record (kind : Kind) (entries : List (Node × Node))

/-- What is left to read, the handles of tags, and the nodes with a name. A named node that is still
being read has none yet. -/
structure Reading where
  tokens : List Token
  handles : List (List Char × List Char)
  anchors : List (List Char × Option Node)

abbrev ReadM := StateT Reading (Except Fault)

namespace Node

def peek : ReadM Token := do return (← get).tokens.headD (.broken .malformed)

def skip : ReadM Unit := modify fun s => { s with tokens := s.tokens.tail }

def stop {α : Type} : ReadM α := do
  match ← peek with
  | .broken f => throw f
  | _ => throw .malformed

/-- Passes the given token; any other is a fault. -/
def expect (t : Token) : ReadM Unit := do if (← peek) = t then skip else stop

/-- A value that is left out. -/
def absent : Node := .scalar .null []

/-- Reads a value, which is left out if one of some tokens comes next. -/
def optional (stops : List Token) (read : ReadM Node) : ReadM Node := do
  if stops.contains (← peek) then return absent else read

def commonHandles : List (List Char × List Char) :=
  [(['!'], ['!']), (['!', '!'], Kind.commonHead.toList)]

/-- The name and the tag in front of a value, in either order, the tag written out. -/
def properties : ReadM (Option (List Char) × Option (List Char)) := do
  let anchor? : ReadM (Option (List Char)) := do
    match ← peek with
    | .anchor n => skip; return some n
    | _ => return none
  let tag? : ReadM (Option (Option (List Char) × List Char)) := do
    match ← peek with
    | .tag h s => skip; return some (h, s)
    | _ => return none
  let a ← anchor?
  let t ← tag?
  let a ← match a with
    | some a => pure (some a)
    | none => anchor?
  match t with
  | none => return (a, none)
  | some (none, suffix) => return (a, some suffix)
  | some (some handle, suffix) =>
      match (← get).handles.lookup handle with
      | some head => return (a, some (head ++ suffix))
      | none => throw .malformed

/-- The kind that a tag names, or another one where it leaves the kind open. -/
def kindOf (tag : Option (List Char)) (otherwise : Kind) : Kind :=
  match tag with
  | some t => if t = ['!'] then otherwise else Kind.ofTag t
  | none => otherwise

/-- Reads what has the given name, which must be new. -/
def named (name? : Option (List Char)) (read : ReadM Node) : ReadM Node := do
  match name? with
  | none => read
  | some name =>
      if ((← get).anchors.lookup name).isSome then throw .malformed
      modify fun s => { s with anchors := (name, none) :: s.anchors }
      let n ← read
      modify fun s => { s with anchors := (name, some n) :: s.anchors }
      return n

mutual

/-- A value. In a block, blocks may follow; `indentless` lets entries stand as far left as the key
in front of them. -/
def value (block indentless : Bool) : Nat → ReadM Node
  | 0 => stop
  | fuel + 1 => do
      match ← peek with
      | .alias name =>
          skip
          match (← get).anchors.lookup name with
          | some (some n) => return n
          | some none => return .scalar .enclosing name
          | none => throw .malformed
      | _ =>
          let (name?, tag) ← properties
          let listKind := kindOf tag .list
          let recordKind := kindOf tag .record
          match ← peek with
          | .scalar text plain =>
              skip
              let kind := if (plain && tag = none) || tag = some ['!'] then Kind.ofPlain text
                else kindOf tag .text
              named name? (return .scalar kind text)
          | .flowSequenceStart =>
              skip
              named name? (return .list listKind (← flowItems true fuel))
          | .flowMappingStart =>
              skip
              named name? (return .record recordKind (← flowEntries true fuel))
          | t =>
              if t = .blockEntry ∧ indentless then
                named name? (return .list listKind (← indentlessItems fuel))
              else if t = .blockSequenceStart ∧ block then
                skip
                named name? (return .list listKind (← blockItems fuel))
              else if t = .blockMappingStart ∧ block then
                skip
                named name? (return .record recordKind (← blockEntries fuel))
              else if name?.isSome ∨ tag.isSome then
                named name? (return .scalar (kindOf tag .null) [])
              else stop

def blockItems : Nat → ReadM (List Node)
  | 0 => stop
  | fuel + 1 => do
      match ← peek with
      | .blockEntry =>
          skip
          let n ← optional [.blockEntry, .blockEnd] (value true false fuel)
          return n :: (← blockItems fuel)
      | .blockEnd => skip; return []
      | _ => stop

/-- The items of a list without an indentation of its own. -/
def indentlessItems : Nat → ReadM (List Node)
  | 0 => stop
  | fuel + 1 => do
      match ← peek with
      | .blockEntry =>
          skip
          let n ← optional [.blockEntry, .key, .value, .blockEnd] (value true false fuel)
          return n :: (← indentlessItems fuel)
      | _ => return []

def blockEntries : Nat → ReadM (List (Node × Node))
  | 0 => stop
  | fuel + 1 => do
      let part : ReadM Node := optional [.key, .value, .blockEnd] (value true true fuel)
      match ← peek with
      | .key =>
          skip
          let k ← part
          if (← peek) = .value then
            skip
            let v ← part
            return (k, v) :: (← blockEntries fuel)
          else return (k, absent) :: (← blockEntries fuel)
      | .blockEnd => skip; return []
      | _ => stop

/-- The items of a bracketed list, up to its end. A key among them makes a record of one entry. -/
def flowItems (first : Bool) : Nat → ReadM (List Node)
  | 0 => stop
  | fuel + 1 => do
      if (← peek) = .flowSequenceEnd then
        skip
        return []
      if !first then expect .flowEntry
      match ← peek with
      | .key =>
          skip
          let k ← optional [.value, .flowEntry, .flowSequenceEnd] (value false false fuel)
          let v ←
            if (← peek) = .value then do
              skip
              optional [.flowEntry, .flowSequenceEnd] (value false false fuel)
            else pure absent
          return .record .record [(k, v)] :: (← flowItems false fuel)
      | .flowSequenceEnd => skip; return []
      | _ =>
          let n ← value false false fuel
          return n :: (← flowItems false fuel)

def flowEntries (first : Bool) : Nat → ReadM (List (Node × Node))
  | 0 => stop
  | fuel + 1 => do
      if (← peek) = .flowMappingEnd then
        skip
        return []
      if !first then expect .flowEntry
      match ← peek with
      | .key =>
          skip
          let k ← optional [.value, .flowEntry, .flowMappingEnd] (value false false fuel)
          let v ←
            if (← peek) = .value then do
              skip
              optional [.flowEntry, .flowMappingEnd] (value false false fuel)
            else pure absent
          return (k, v) :: (← flowEntries false fuel)
      | .flowMappingEnd => skip; return []
      | _ =>
          let k ← value false false fuel
          return (k, absent) :: (← flowEntries false fuel)

end

/-- Reads what a document says about itself, and gives the handles of tags it has. -/
def directives : Nat → Bool → List (List Char × List Char) → ReadM (List (List Char × List Char))
  | 0, _, handles => return handles
  | fuel + 1, versioned, handles => do
      match ← peek with
      | .directive (.version major) =>
          if versioned ∨ major ≠ 1 then throw .malformed
          skip
          directives fuel true handles
      | .directive (.handle name head) =>
          if (handles.lookup name).isSome then throw .malformed
          skip
          directives fuel versioned (handles ++ [(name, head)])
      | .directive .other => skip; directives fuel versioned handles
      | _ => return handles

def skipEnds : Nat → ReadM Unit
  | 0 => return ()
  | fuel + 1 => do
      if (← peek) = .documentEnd then
        skip
        skipEnds fuel

/-- The only document of a text, `none` if it has none. `size` is at least the number of tokens. -/
def document (size : Nat) : ReadM (Option Node) := do
  let opens : Bool := match ← peek with
    | .directive _ | .documentStart | .streamEnd => true
    | _ => false
  let fuel := 4 * size + 8
  let n ←
    if opens then do
      if (← peek) = .streamEnd then return none
      let handles ← directives size false []
      modify fun s => { s with handles := handles ++ commonHandles }
      expect .documentStart
      match ← peek with
      | .directive _ | .documentStart | .documentEnd | .streamEnd => pure absent
      | _ => value true false fuel
    else value true false fuel
  skipEnds size
  expect .streamEnd
  return some n

def ofTokens? (ts : List Token) : Except Fault (Option Node) :=
  ((document ts.length).run ⟨ts, commonHandles, []⟩).map Prod.fst

end Node

end Perception.Yaml
