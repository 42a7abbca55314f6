import Perception.Json.Token

set_option autoImplicit false

/-! # Reading JSON

The value that a text denotes, or the first fault in it. Main definitions: `Json.parse?` reads a
text, and `Json.textOf?` finds the text of a document in bytes, whose encoding shows from the first
of them.
-/

namespace Perception.Json

/-- Where reading stopped, by the number of characters left. -/
inductive Stop
  | malformed (cause : Cause) (rest : Nat)
  | tooManyDigits
  | tooDeep

/-- How many lists and records may stand one inside the other. -/
def maxDepth : Nat := 990

/-- Stop in front of the next token, or at the end of the text if there is none. -/
def stopBefore (cause : Cause) : List Token → Stop
  | [] => .malformed cause 0
  | t :: _ => .malformed cause t.rest

mutual

/-- The value at the head of the tokens and the tokens after it. `depth` levels may still open. -/
def value : Nat → Nat → List Token → Except Stop (Datum × List Token)
  | 0, _, ts => .error (stopBefore .expectingValue ts)
  | _ + 1, _, [] => .error (.malformed .expectingValue 0)
  | fuel + 1, depth, t :: ts =>
      match t.lexeme with
      | .atom d => .ok (d, ts)
      | .text cs => .ok (.text (String.ofList cs), ts)
      | .longNumber => .error .tooManyDigits
      | .brokenText cause rest => .error (.malformed cause rest)
      | .openList =>
          match depth with
          | 0 => .error .tooDeep
          | depth + 1 =>
              match ts with
              | ⟨.closeList, _⟩ :: rest => .ok (.list [], rest)
              | _ => (items fuel depth ts).map fun (xs, rest) => (.list xs, rest)
      | .openRecord =>
          match depth with
          | 0 => .error .tooDeep
          | depth + 1 =>
              match ts with
              | ⟨.closeRecord, _⟩ :: rest => .ok (.record [], rest)
              | _ => (members fuel depth ts).map fun (es, rest) =>
                  (.record (Datum.ofEntries es), rest)
      | _ => .error (.malformed .expectingValue t.rest)

def items : Nat → Nat → List Token → Except Stop (List Datum × List Token)
  | 0, _, ts => .error (stopBefore .expectingValue ts)
  | fuel + 1, depth, ts => do
      let (x, ts) ← value fuel depth ts
      match ts with
      | ⟨.closeList, _⟩ :: rest => .ok ([x], rest)
      | ⟨.comma, _⟩ :: rest => do
          let (xs, rest) ← items fuel depth rest
          .ok (x :: xs, rest)
      | _ => .error (stopBefore .expectingComma ts)

def members : Nat → Nat → List Token → Except Stop (List (Datum × Datum) × List Token)
  | 0, _, ts => .error (stopBefore .expectingName ts)
  | fuel + 1, depth, ts =>
      match ts with
      | ⟨.text key, _⟩ :: ⟨.colon, _⟩ :: ts => do
          let (x, ts) ← value fuel depth ts
          let entry := (Datum.text (String.ofList key), x)
          match ts with
          | ⟨.closeRecord, _⟩ :: rest => .ok ([entry], rest)
          | ⟨.comma, _⟩ :: rest => do
              let (es, rest) ← members fuel depth rest
              .ok (entry :: es, rest)
          | _ => .error (stopBefore .expectingComma ts)
      | ⟨.text _, _⟩ :: ts => .error (stopBefore .expectingColon ts)
      | ⟨.brokenText cause rest, _⟩ :: _ => .error (.malformed cause rest)
      | _ => .error (stopBefore .expectingName ts)

end

def document (ts : List Token) : Except Stop Datum :=
  match value (2 * ts.length + 2) maxDepth ts with
  | .error e => .error e
  | .ok (d, []) => .ok d
  | .ok (_, t :: _) => .error (.malformed .extraData t.rest)

def read? (cs : List Char) : Except Fault Datum :=
  (document (tokens cs)).mapError fun
    | .malformed cause rest => .at cs cause rest
    | .tooManyDigits => .tooManyDigits
    | .tooDeep => .tooDeep

/-- The value that a text denotes. A byte order mark is no part of a text. -/
def parse? (cs : List Char) : Except Fault Datum :=
  if cs.head? = some (Char.ofNat 0xFEFF) then .error (.at cs .byteOrderMark cs.length)
  else read? cs

/-- The encodings of a JSON text: bytes per unit, and whether the first byte is the highest. -/
inductive Encoding
  | utf8
  | utf16 (bigEndian : Bool)
  | utf32 (bigEndian : Bool)

def Encoding.mark? (bs : Bytes) : Option (Encoding × Nat) :=
  if [0, 0, 0xFE, 0xFF].isPrefixOf bs then some (.utf32 true, 4)
  else if [0xFF, 0xFE, 0, 0].isPrefixOf bs then some (.utf32 false, 4)
  else if [0xFE, 0xFF].isPrefixOf bs then some (.utf16 true, 2)
  else if [0xFF, 0xFE].isPrefixOf bs then some (.utf16 false, 2)
  else if [0xEF, 0xBB, 0xBF].isPrefixOf bs then some (.utf8, 3)
  else none

/-- The encoding that the places of the null bytes show in a text without a mark. -/
def Encoding.ofNulls : Bytes → Encoding
  | a :: b :: c :: d :: _ =>
      if a = 0 then if b ≠ 0 then .utf16 true else .utf32 true
      else if b = 0 then if c ≠ 0 ∨ d ≠ 0 then .utf16 false else .utf32 false
      else .utf8
  | [a, b] => if a = 0 then .utf16 true else if b = 0 then .utf16 false else .utf8
  | _ => .utf8

/-- The encoding that the first bytes show, with the number of bytes of the mark to skip. -/
def Encoding.detect (bs : Bytes) : Encoding × Nat :=
  (Encoding.mark? bs).getD (Encoding.ofNulls bs, 0)

/-- Units of two bytes, `none` if a byte is left over. -/
def units16? (bigEndian : Bool) : Bytes → Option (List Nat)
  | [] => some []
  | [_] => none
  | a :: b :: rest =>
      (units16? bigEndian rest).map fun us =>
        (if bigEndian then a.toNat * 256 + b.toNat else b.toNat * 256 + a.toNat) :: us

/-- Units of four bytes, `none` if bytes are left over or a unit is no code point. -/
def units32? (bigEndian : Bool) : Bytes → Option (List Nat)
  | [] => some []
  | a :: b :: c :: d :: rest => do
      let us ← units32? bigEndian rest
      let n := Bytes.toNatLE (if bigEndian then [d, c, b, a] else [a, b, c, d])
      if n < 0x110000 then some (n :: us) else none
  | _ => none

/-- The text that bytes hold, `none` if they break the rules of their encoding. -/
def textOf? (bs : Bytes) : Option (List Char) :=
  match Encoding.detect bs with
  | (.utf8, skip) => (Utf8.codePoints? (bs.drop skip)).map joinHalves
  | (.utf16 bigEndian, skip) => (units16? bigEndian (bs.drop skip)).map joinHalves
  | (.utf32 bigEndian, skip) => (units32? bigEndian (bs.drop skip)).map joinHalves

end Perception.Json
