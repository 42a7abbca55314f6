import Perception.Datum.Shown
import Perception.Yaml.Node

set_option autoImplicit false

/-! # The value of a settings file

What the nodes of a document denote (`Yaml.read?`). Records take over the entries of other records
under the merge key, in front of their own; keys must be values that can be compared. Of several
faults that of the outermost value counts, and among those the first.
-/

namespace Perception.Yaml

/-! ## Scalars -/

/-- A text without underscores, cut into its sign and the rest. -/
def signed (cs : List Char) : Option (Bool × List Char) :=
  match cs.filter (· ≠ '_') with
  | [] => none
  | '-' :: rest => some (true, rest)
  | '+' :: rest => some (false, rest)
  | rest => some (false, rest)

def readSigned (negative : Bool) (base : Nat) (cs : List Char) : Except Fault Datum :=
  match Number.readInt? base cs with
  | some i => .ok (.int (if negative then -i else i))
  | none => .error (.unfit .value)

def intOf (cs : List Char) : Except Fault Datum :=
  match signed cs with
  | none => .error (.unfit .index)
  | some (negative, body) =>
      match body with
      | [] => .error (.unfit .index)
      | ['0'] => .ok (.int 0)
      | '0' :: 'b' :: rest => readSigned negative 2 rest
      | '0' :: 'x' :: rest => readSigned negative 16 rest
      | '0' :: _ => readSigned negative 8 body
      | _ =>
          if body.contains ':' then
            match (Text.splitAt (· = ':') body).mapM (Number.readInt? 10) with
            | some ps =>
                let n := ps.foldl (fun n p => n * 60 + p) 0
                .ok (.int (if negative then -n else n))
            | none => .error (.unfit .value)
          else readSigned negative 10 body

/-- The sum of parts, each of which counts sixty times as much as the next; the last comes first. -/
def sumSixtieths : List Float → Nat → Float → Float
  | [], _, sum => sum
  | p :: ps, weight, sum => sumSixtieths ps (weight * 60) (sum + p * Number.ofInt weight)

def floatOf (cs : List Char) : Except Fault Datum :=
  match signed (cs.map Char.toLower) with
  | none => .error (.unfit .index)
  | some (negative, body) =>
      let finish (x? : Option Float) : Except Fault Datum :=
        match x? with
        | some x => .ok (.float (if negative then -x else x))
        | none => .error (.unfit .value)
      if body.isEmpty then .error (.unfit .index)
      else if body = ".inf".toList then finish (some (1.0 / 0.0))
      else if body = ".nan".toList then .ok (.float (0.0 / 0.0))
      else if body.contains ':' then
        finish (((Text.splitAt (· = ':') body).mapM Number.readFloat?).map fun ps =>
          sumSixtieths ps.reverse 1 0.0)
      else finish (Number.readFloat? body)

def boolOf (cs : List Char) : Except Fault Datum :=
  let word := String.ofList (cs.map Char.toLower)
  if ["yes", "true", "on"].contains word then .ok (.bool true)
  else if ["no", "false", "off"].contains word then .ok (.bool false)
  else .error (.unfit .key)

def stampOf (cs : List Char) : Except Fault Datum :=
  match Stamp.ofChars? cs with
  | none => .error (.unfit .attribute)
  | some s =>
      if s.isReal then .ok (.foreign (if s.clock.isSome then .moment else .date) s.text)
      else .error (.unfit .value)

/-- The value of a character in base 64. -/
def sextet? (c : Char) : Option Nat :=
  if 'A' ≤ c ∧ c ≤ 'Z' then some (c.toNat - 65)
  else if 'a' ≤ c ∧ c ≤ 'z' then some (c.toNat - 71)
  else if '0' ≤ c ∧ c ≤ '9' then some (c.toNat + 4)
  else if c = '+' then some 62
  else if c = '/' then some 63
  else none

/-- The bytes of a text in base 64, where other characters count for nothing; `place` is the number
of characters since the last full group, `held` the bits of an unfinished byte. -/
def bytesOf? : List Char → Nat → Nat → Nat → Option Bytes
  | [], place, _, _ => if place = 0 then some [] else none
  | c :: cs, place, pads, held =>
      if c = '=' then
        if 2 ≤ place ∧ 4 ≤ place + pads + 1 then some []
        else bytesOf? cs place (if 2 ≤ place then pads + 1 else pads) held
      else
        match sextet? c with
        | none => bytesOf? cs place pads held
        | some v =>
            match place with
            | 0 => bytesOf? cs 1 0 v
            | 1 => (bytesOf? cs 2 0 (v % 16)).map (UInt8.ofNat (held * 4 + v / 16) :: ·)
            | 2 => (bytesOf? cs 3 0 (v % 4)).map (UInt8.ofNat (held * 16 + v / 4) :: ·)
            | _ => (bytesOf? cs 0 0 0).map (UInt8.ofNat (held * 64 + v) :: ·)

def binaryOf (cs : List Char) : Except Fault Datum :=
  if cs.any fun c => 128 ≤ c.toNat then .error .malformed
  else match bytesOf? cs 0 0 0 with
    | some bs => .ok (.foreign .bytes bs.toHex)
    | none => .error .malformed

def leafOf (kind : Kind) (cs : List Char) : Except Fault Datum :=
  match kind with
  | .null => .ok .null
  | .bool => boolOf cs
  | .int => intOf cs
  | .float => floatOf cs
  | .binary => binaryOf cs
  | .timestamp => stampOf cs
  | .text => .ok (.text (String.ofList cs))
  | _ => .error .malformed

/-! ## Lists and records -/

namespace Node

def kind : Node → Kind
  | scalar k _ => k
  | list k _ => k
  | record k _ => k

/-- The text of a scalar, or of the scalar that stands in for a record. -/
def scalarText? : Nat → Node → Option (List Char)
  | _, scalar _ cs => some cs
  | 0, _ => none
  | fuel + 1, record _ es =>
      match es.find? fun (k, _) => k.kind = .standIn with
      | some (_, v) => scalarText? fuel v
      | none => none
  | _, list .. => none

/-- The entries of a record: those taken over from other records, and its own after them. -/
def mergedEntries : Nat → Node → Except Fault (List (Node × Node))
  | 0, _ => .error .malformed
  | _, scalar .enclosing _ => .ok []
  | fuel + 1, record _ es => do
      let taken ← (es.filter fun (k, _) => k.kind = .merge).mapM fun (_, v) =>
        match v with
        | record .. => mergedEntries fuel v
        | list _ items => do
            let parts ← items.mapM (mergedEntries fuel)
            .ok parts.reverse.flatten
        | scalar .. => mergedEntries fuel v
      .ok (taken.flatten ++ es.filter fun (k, _) => k.kind ≠ .merge)
  | _, _ => .error .malformed

def isKeyKind : Kind → Bool
  | .list | .record | .pairs | .set | .enclosing => false
  | _ => true

/-- The kind of a key: the stand-in key is a mere text among entries. -/
def asKey : Node → Node
  | scalar .standIn cs => scalar .text cs
  | n => n

/-- The faults of a value that is looked at in round `depth`; what is inside of it is looked at in
the next round, and a key with all that is inside of it in one round. -/
def faults : Nat → Nat → Node → List (Nat × Fault)
  | 0, depth, _ => [(depth, .malformed)]
  | fuel + 1, depth, n =>
      let inside : Node → List (Nat × Fault) := faults fuel (depth + 1)
      let ofRecord : List (Nat × Fault) :=
        match mergedEntries (fuel + 1) n with
        | .error f => [(depth + 1, f)]
        | .ok es => es.flatMap fun (k, v) =>
            let k := k.asKey
            let unfit : List (Nat × Fault) :=
              if isKeyKind k.kind then [] else [(depth + 1, .malformed)]
            (inside k).map (fun (_, f) => (depth + 1, f)) ++ unfit ++ inside v
      match n.kind with
      | .unknown | .merge | .standIn => [(depth, .malformed)]
      | .enclosing => []
      | .record | .set => ofRecord
      | .list =>
          match n with
          | list _ items => items.flatMap inside
          | _ => [(depth + 1, .malformed)]
      | .pairs =>
          match n with
          | list _ items => items.flatMap fun
              | record _ [(k, v)] => inside k ++ inside v
              | _ => [(depth + 1, .malformed)]
          | _ => [(depth + 1, .malformed)]
      | kind =>
          match n.scalarText? (fuel + 1) with
          | none => [(depth, .malformed)]
          | some cs =>
              match leafOf kind cs with
              | .error f => [(depth, f)]
              | .ok _ => []

/-- The value of a node without faults. -/
def datum : Nat → Node → Datum
  | 0, _ => .null
  | fuel + 1, n =>
      let entries : List (Datum × Datum) :=
        Datum.ofEntries (((mergedEntries (fuel + 1) n).toOption.getD []).map fun (k, v) =>
          (datum fuel k.asKey, datum fuel v))
      match n.kind, n with
      | .record, _ => .record entries
      | .set, _ =>
          .foreign .set (", ".intercalate (entries.map fun (k, _) => Datum.shown k))
      | .enclosing, _ => .foreign .loop ""
      | .list, list _ items => .list (items.map (datum fuel))
      | .pairs, list _ items => .list (items.map fun
          | record _ [(k, v)] => .list [datum fuel k, datum fuel v]
          | _ => .null)
      | kind, _ => (leafOf kind ((n.scalarText? (fuel + 1)).getD [])).toOption.getD .null

/-- The fault of the earliest round, the first of them. -/
def firstFault : List (Nat × Fault) → Option (Nat × Fault)
  | [] => none
  | (d, f) :: rest =>
      match firstFault rest with
      | some (e, g) => if d ≤ e then some (d, f) else some (e, g)
      | none => some (d, f)

end Node

/-- The value that a text denotes; the empty document denotes nothing. -/
def read? (cs : List Char) : Except Fault Datum := do
  let ts := tokens cs
  match ← Node.ofTokens? ts with
  | none => .ok .null
  | some n =>
      let fuel := ts.length + 1
      match Node.firstFault (n.faults fuel 0) with
      | some (_, f) => .error f
      | none => .ok (n.datum fuel)

end Perception.Yaml
