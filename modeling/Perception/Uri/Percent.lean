import Perception.Uri.Basic

set_option autoImplicit false

/-! # Percent signs in addresses

The path of a file in an address has its bytes written as a percent sign and two hexadecimal digits
where they are not plain letters, digits or a few marks. Reading undoes this (`Uri.decodePath`),
taking as it is what is no such escape, and putting a replacement character where the bytes are no
text. Writing is `Uri.encodePath`, and `Uri.ofPath` is the address of a file.
-/

namespace Perception.Uri

def isAscii (c : Char) : Bool := c.toNat < 128

/-- The bytes of a run of ASCII characters once escapes are undone. -/
def unescape : List Char → Bytes
  | [] => []
  | '%' :: a :: b :: rest =>
      match Bytes.hexValue? a, Bytes.hexValue? b with
      | some x, some y => UInt8.ofNat (x * 16 + y) :: unescape rest
      | _, _ => 0x25 :: unescape (a :: b :: rest)
  | c :: rest => UInt8.ofNat c.toNat :: unescape rest

/-- Undoes the escapes of a path. Runs of ASCII characters are decoded each for itself; characters
beyond ASCII stand for themselves. `fuel` is at least the length. -/
def decodeRuns : Nat → List Char → List Char
  | 0, _ => []
  | _, [] => []
  | fuel + 1, c :: cs =>
      if isAscii c then
        Utf8.decodeLossy (unescape ((c :: cs).takeWhile isAscii))
          ++ decodeRuns fuel ((c :: cs).dropWhile isAscii)
      else c :: decodeRuns fuel cs

def decodePath (cs : List Char) : List Char := decodeRuns cs.length cs

/-- Bytes that stand for themselves in the path of an address. -/
def isPlain (b : UInt8) : Bool :=
  let c := Char.ofNat b.toNat
  isAscii c && (isLetter c || isDigit c || c = '_' || c = '.' || c = '-' || c = '~' || c = '/')

def escapeByte (b : UInt8) : List Char :=
  if isPlain b then [Char.ofNat b.toNat]
  else
    let digit (n : Nat) : Char := if n < 10 then Char.ofNat (48 + n) else Char.ofNat (55 + n)
    ['%', digit (b.toNat / 16), digit (b.toNat % 16)]

def encodePath (cs : List Char) : List Char := (Utf8.encode cs).flatMap escapeByte

/-- The address of the file with an absolute path. -/
def ofPath (cs : List Char) : List Char := ['f', 'i', 'l', 'e', ':', '/', '/'] ++ encodePath cs

end Perception.Uri
