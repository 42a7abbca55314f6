import Perception.CommandLine.Words
import Perception.Datum.Number

set_option autoImplicit false

/-! # Arguments of a command

The values that the words of a command line give: one under the key of each switch, the last of
several winning, and a list of the plain words. Words that nothing takes are refused, and so is the
lack of a required one.
-/

namespace Perception.CommandLine

/-- What has been found so far: values by key, the switches that were used, whether plain words were
taken, and the words that nothing took. -/
structure Findings where
  values : List (Datum × Datum)
  used : List String
  plainTaken : Bool
  leftOver : List String

namespace Findings

def empty : Findings := ⟨[], [], false, []⟩

def store (f : Findings) (s : Switch) (key : String) (value : Datum) : Findings :=
  { f with values := Datum.insert f.values (.text key) value, used := s.title :: f.used }

def leave (f : Findings) (texts : List String) : Findings :=
  { f with leftOver := f.leftOver ++ texts }

end Findings

/-- The value that a switch is given. The mark for plain words is no value, but an empty list. -/
def Switch.value (s : Switch) (read : String → Except String Datum) (text : String) :
    Except Stop Datum :=
  if text = Word.mark then .ok (.list [])
  else match read text with
    | .ok d => .ok d
    | .error reason => s.refuse reason

/-- A switch that asks for help, with a value given in the same word: what follows a short name are
further short names. -/
def helpWith (g : Grammar) (s : Switch) (name : List Char) : List Char → Except Stop Unit
  | [] => s.refuse "ignored explicit argument ''"
  | c :: rest =>
      let rejected := Text.quoted (String.ofList (c :: rest))
      let refused := s.refuse s!"ignored explicit argument {rejected}"
      if name.getD 1 '-' = '-' then refused
      else match g.find? (String.ofList ['-', c]) with
        | some t => if rest.isEmpty then .error .help else helpWith g t ['-', c] rest
        | none => refused

def takeSwitch (g : Grammar) (f : Findings) (s : Switch) (name : String) (given : Option String)
    (rest : List Word) : Except Stop (Findings × List Word) :=
  match s.effect with
  | .help =>
      match given with
      | none => .error .help
      | some v => (helpWith g s name.toList v.toList).map fun _ => (f, rest)
  | .store key read =>
      match given, rest with
      | some v, _ => do return (f.store s key (← s.value read v), rest)
      | none, .plain v :: rest => do return (f.store s key (← s.value read v), rest)
      | none, _ => s.refuse "expected one argument"

/-- Takes words in front that are no switches: they are the plain words if there is one among them
and none were taken before. -/
def takePlain (g : Grammar) (f : Findings) (front : List Word) : Findings :=
  let texts := front.filterMap Word.text?
  match g.plainKey with
  | some key =>
      if !f.plainTaken && front.any Word.isPlain then
        let list := Datum.list ((texts.erase Word.mark).map Datum.text)
        { f with plainTaken := true, values := Datum.insert f.values (.text key) list }
      else f.leave texts
  | none => f.leave texts

/-- Takes all words; `fuel` is at least their number. -/
def takeAll (g : Grammar) : Nat → Findings → List Word → Except Stop Findings
  | _, f, [] => .ok f
  | 0, f, _ => .ok f
  | fuel + 1, f, .switch text none :: rest => takeAll g fuel (f.leave [text]) rest
  | fuel + 1, f, .switch _ (some (s, name, given)) :: rest =>
      match takeSwitch g f s name given rest with
      | .error e => .error e
      | .ok (f, rest) => takeAll g fuel f rest
  | fuel + 1, f, words =>
      let front := words.takeWhile fun w => w.text?.isSome
      takeAll g fuel (takePlain g f front) (words.drop front.length)

/-- What is required and was not found. -/
def missing (g : Grammar) (f : Findings) : List String :=
  ((g.switches.filter fun s => s.required && !f.used.contains s.title).map Switch.title)
    ++ (if f.plainTaken then [] else g.plainKey.toList)

/-- The values of all keys; those not given have their defaults. -/
def values (g : Grammar) (f : Findings) : Datum :=
  .record (g.switches.foldl
    (fun es s => match s.effect with
      | .help => es
      | .store key _ =>
          if (Datum.lookup es key).isSome then es
          else Datum.insert es (.text key) s.default)
    f.values)

def arguments (g : Grammar) (words : List String) : Except Stop Datum := do
  let words ← Word.ofStrings g words
  let f ← takeAll g words.length .empty words
  match missing g f with
  | [] =>
      if f.leftOver.isEmpty then return values g f
      else throw (.refused ("unrecognized arguments: " ++ " ".intercalate f.leftOver))
  | names => throw (.refused ("the following arguments are required: " ++ ", ".intercalate names))

def readText (s : String) : Except String Datum := .ok (.text s)

def readWhole (s : String) : Except String Datum :=
  match Number.readInt? 10 s.toList with
  | some i => .ok (.int i)
  | none => .error s!"invalid int value: {Text.quoted s}"

def readFraction (s : String) : Except String Datum :=
  match Number.readFloat? s.toList with
  | some x => .ok (.float x)
  | none => .error s!"invalid float value: {Text.quoted s}"

def helpSwitch : Switch := ⟨["-h", "--help"], .help, false, .null⟩

/-- A switch whose value is stored under its name without the dashes, and underscores for the dashes
within. -/
def valueSwitch (name : String) (read : String → Except String Datum) (required : Bool)
    (default : Datum) : Switch :=
  let key := (name.toList.dropWhile (· = '-')).map fun c => if c = '-' then '_' else c
  ⟨[name], .store (String.ofList key) read, required, default⟩

end Perception.CommandLine
