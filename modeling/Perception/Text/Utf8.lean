set_option autoImplicit false

/-! # Bytes and UTF-8

A file's content is a list of bytes. Text is read from bytes either strictly, where one ill-formed
sequence spoils the whole, or leniently, where each ill-formed sequence becomes one replacement
character.
-/

namespace Perception

/-- The content of a file or of a reply. -/
abbrev Bytes := List UInt8

namespace Bytes

/-- Two hexadecimal digits a byte, lower case. -/
def toHex (bs : Bytes) : String :=
  String.ofList (bs.flatMap fun b => [Nat.digitChar (b.toNat / 16), Nat.digitChar (b.toNat % 16)])

def hexValue? (c : Char) : Option Nat :=
  if '0' ≤ c ∧ c ≤ '9' then some (c.toNat - 48)
  else if 'a' ≤ c ∧ c ≤ 'f' then some (c.toNat - 87)
  else if 'A' ≤ c ∧ c ≤ 'F' then some (c.toNat - 55)
  else none

def ofHexChars : List Char → Bytes → Bytes
  | a :: b :: rest, acc =>
      ofHexChars rest (UInt8.ofNat ((hexValue? a).getD 0 * 16 + (hexValue? b).getD 0) :: acc)
  | _, acc => acc.reverse

/-- The bytes that a text of hexadecimal digits names. -/
def ofHex (s : String) : Bytes := ofHexChars s.toList []

def toNatLE : Bytes → Nat
  | [] => 0
  | b :: bs => b.toNat + 256 * toNatLE bs

def ofNatLE : Nat → Nat → Bytes
  | 0, _ => []
  | n + 1, x => UInt8.ofNat x :: ofNatLE n (x / 256)

end Bytes

namespace Utf8

/-- How many continuation bytes follow a first byte, the least and greatest value of the next one,
and the bits the first byte gives; `none` for a byte that cannot be first. With `halves` the code
points of surrogates are let through. -/
def lead? (halves : Bool) (b : UInt8) : Option (Nat × Nat × Nat × Nat) :=
  let n := b.toNat
  if n < 0x80 then some (0, 0, 0, n)
  else if n < 0xC2 then none
  else if n < 0xE0 then some (1, 0x80, 0xBF, n - 0xC0)
  else if n = 0xE0 then some (2, 0xA0, 0xBF, 0)
  else if n = 0xED ∧ !halves then some (2, 0x80, 0x9F, n - 0xE0)
  else if n < 0xF0 then some (2, 0x80, 0xBF, n - 0xE0)
  else if n = 0xF0 then some (3, 0x90, 0xBF, 0)
  else if n < 0xF4 then some (3, 0x80, 0xBF, n - 0xF0)
  else if n = 0xF4 then some (3, 0x80, 0x8F, 4)
  else none

/-- Reads `count` continuation bytes onto the bits `acc`. The first must lie between `lo` and `hi`.
Gives the code point, `none` where the sequence breaks off, and the bytes not read. -/
def continue? : Nat → Nat → Nat → Nat → Bytes → Option Nat × Bytes
  | 0, _, _, acc, bs => (some acc, bs)
  | _ + 1, _, _, _, [] => (none, [])
  | k + 1, lo, hi, acc, b :: bs =>
      if lo ≤ b.toNat ∧ b.toNat ≤ hi then continue? k 0x80 0xBF (acc * 64 + (b.toNat - 0x80)) bs
      else (none, b :: bs)

/-- The first code point of a non-empty byte list, `none` where it is ill-formed, and the bytes
after it. An ill-formed sequence extends as far as it might have been the start of a good one. -/
def next (halves : Bool) (b : UInt8) (bs : Bytes) : Option Nat × Bytes :=
  match lead? halves b with
  | none => (none, bs)
  | some (k, lo, hi, acc) => continue? k lo hi acc bs

/-- Reads code points for at most `fuel` steps, each ill-formed sequence as `none`. -/
def units (halves : Bool) : Nat → Bytes → List (Option Nat)
  | 0, _ => []
  | _ + 1, [] => []
  | fuel + 1, b :: bs =>
      let (n?, rest) := next halves b bs
      n? :: units halves fuel rest

/-- The code points that the bytes encode, surrogates among them, `none` if any sequence is
ill-formed. -/
def codePoints? (bs : Bytes) : Option (List Nat) := (units true bs.length bs).mapM id

/-- The text that the bytes encode, `none` if any sequence is ill-formed. -/
def decode? (bs : Bytes) : Option (List Char) :=
  ((units false bs.length bs).mapM id).map fun ns => ns.map Char.ofNat

/-- The text that the bytes encode, with a replacement character for each ill-formed sequence. -/
def decodeLossy (bs : Bytes) : List Char :=
  (units false bs.length bs).map fun n? => Char.ofNat (n?.getD 0xFFFD)

def encodeChar (c : Char) : Bytes :=
  let n := c.toNat
  if n < 0x80 then [UInt8.ofNat n]
  else if n < 0x800 then [UInt8.ofNat (0xC0 + n / 64), UInt8.ofNat (0x80 + n % 64)]
  else if n < 0x10000 then
    [UInt8.ofNat (0xE0 + n / 4096), UInt8.ofNat (0x80 + n / 64 % 64), UInt8.ofNat (0x80 + n % 64)]
  else
    [UInt8.ofNat (0xF0 + n / 262144), UInt8.ofNat (0x80 + n / 4096 % 64),
      UInt8.ofNat (0x80 + n / 64 % 64), UInt8.ofNat (0x80 + n % 64)]

def encode (cs : List Char) : Bytes := cs.flatMap encodeChar

end Utf8

def Bytes.ofString (s : String) : Bytes := Utf8.encode s.toList

def Bytes.toString? (bs : Bytes) : Option String := (Utf8.decode? bs).map String.ofList

end Perception
