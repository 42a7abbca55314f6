import Perception.Text.Blank
import Perception.Text.Utf8

set_option autoImplicit false

/-! # Addresses

An address is cut into a scheme, an authority and a path; what follows a question mark or a number
sign is left out. Blanks and controls in front are skipped, and tabs and line ends count for nothing
wherever they stand. An address is refused if brackets in its authority do not match or do not hold
an IP address, or if its authority has characters that look like delimiters once they are brought to
their plain form.
-/

namespace Perception

structure Uri where
  scheme : List Char
  authority : List Char
  path : List Char
  deriving DecidableEq, Repr

namespace Uri

/-- Letters and digits of ASCII. -/
def isLetter (c : Char) : Bool := ('a' ≤ c && c ≤ 'z') || ('A' ≤ c && c ≤ 'Z')

def isDigit (c : Char) : Bool := '0' ≤ c && c ≤ '9'

def isSchemeChar (c : Char) : Bool :=
  isLetter c || isDigit c || c = '+' || c = '-' || c = '.'

def isControl (c : Char) : Bool := c.toNat ≤ 0x20

/-- Characters that count for nothing in an address. -/
def isIgnored (c : Char) : Bool := c = '\t' || c = '\r' || c = '\n'

/-- An address without the characters that count for nothing. -/
def clean (cs : List Char) : List Char := (cs.dropWhile isControl).filter fun c => !isIgnored c

/-- The scheme in lower case, empty if there is none, and what follows it. -/
def splitScheme (cs : List Char) : List Char × List Char :=
  match Text.cutAt? (· = ':') cs with
  | some (c :: name, rest) =>
      if isLetter c && name.all isSchemeChar then ((c :: name).map Char.toLower, rest) else ([], cs)
  | _ => ([], cs)

def endsAuthority (c : Char) : Bool := c = '/' || c = '?' || c = '#'

/-- The authority, empty if there is none, and what follows it. -/
def splitAuthority : List Char → List Char × List Char
  | '/' :: '/' :: rest =>
      (rest.takeWhile fun c => !endsAuthority c, rest.dropWhile fun c => !endsAuthority c)
  | cs => ([], cs)

/-- A hexadecimal group of an IP address. -/
def isGroup (cs : List Char) : Bool :=
  cs.length ≤ 4 && !cs.isEmpty && cs.all fun c => (Bytes.hexValue? c).isSome

/-- One of the four numbers of an address in the old form. -/
def isOctet (cs : List Char) : Bool :=
  !cs.isEmpty && cs.length ≤ 3 && cs.all isDigit && !(cs.length > 1 && cs.head? = some '0')
    && cs.foldl (fun n c => n * 10 + (c.toNat - 48)) 0 ≤ 255

/-- An address in the old form: four numbers with points between them. -/
def isOldAddress (cs : List Char) : Bool :=
  let parts := Text.splitAt (· = '.') cs
  parts.length = 4 && parts.all isOctet

/-- Eight groups with colons between them, where one run of groups may be left out, and the last two
may stand in the old form. -/
def isAddress (cs : List Char) : Bool :=
  let parts := Text.splitAt (· = ':') cs
  let last := parts.getLast?.getD []
  let old := last.contains '.'
  let parts := if old then parts.dropLast ++ [['0'], ['0']] else parts
  let inner := parts.tail.dropLast
  let gaps := (inner.filter List.isEmpty).length
  let firstEmpty := (parts.head?.getD []).isEmpty
  let lastEmpty := (parts.getLast?.getD []).isEmpty
  let groups := parts.filter fun p => !p.isEmpty
  (!old || isOldAddress last) && 3 ≤ (Text.splitAt (· = ':') cs).length && parts.length ≤ 9
    && groups.all isGroup
    && (if gaps = 0 then parts.length = 8 && !firstEmpty && !lastEmpty
      else gaps = 1 && (!firstEmpty || (parts.getD 1 ['0']).isEmpty)
        && (!lastEmpty || (parts.getD (parts.length - 2) ['0']).isEmpty)
        && groups.length < 8)

/-- An address with an optional zone after a percent sign. -/
def isZonedAddress (cs : List Char) : Bool :=
  match Text.cutAt? (· = '%') cs with
  | none => isAddress cs
  | some (address, zone) => isAddress address && !zone.isEmpty && !zone.contains '%'

/-- An address of a form still to come: a version, a point and anything. -/
def isFutureAddress (cs : List Char) : Bool :=
  match cs with
  | 'v' :: rest =>
      match Text.cutAt? (· = '.') rest with
      | some (version, body) =>
          !version.isEmpty && version.all (fun c => (Bytes.hexValue? c).isSome) && !body.isEmpty
            && !body.contains '\n'
      | none => false
  | _ => false

/-- Do the brackets of an authority match, and hold an address? -/
def bracketsFit (cs : List Char) : Bool :=
  if cs.contains '[' && cs.contains ']' then
    let inside := (Text.cutAt? (· = '[') cs).elim [] fun (_, rest) =>
      rest.takeWhile (· ≠ ']')
    if inside.head? = some 'v' then isFutureAddress inside else isZonedAddress inside
  else !(cs.contains '[' || cs.contains ']')

/-- Code points whose plain form has a delimiter in it. -/
def disguisedDelimiters : List Nat :=
  [0x2047, 0x2048, 0x2049, 0x2100, 0x2101, 0x2105, 0x2106, 0x2A74, 0xFE13, 0xFE16, 0xFE55, 0xFE56,
    0xFE5F, 0xFE6B, 0xFF03, 0xFF0F, 0xFF1A, 0xFF1F, 0xFF20]

def parse? (cs : List Char) : Option Uri :=
  let (scheme, rest) := splitScheme (clean cs)
  let (authority, rest) := splitAuthority rest
  if !bracketsFit authority then none
  else if authority.any fun c => disguisedDelimiters.contains c.toNat then none
  else some ⟨scheme, authority, rest.takeWhile fun c => c ≠ '#' && c ≠ '?'⟩

/-- Does an address name its scheme? A single letter in front of a colon is a drive. -/
def isAbsolute (u : Uri) : Bool := 1 < u.scheme.length

def isFile (u : Uri) : Bool := u.scheme = ['f', 'i', 'l', 'e']

def isWeb (u : Uri) : Bool :=
  u.scheme = ['h', 't', 't', 'p'] || u.scheme = ['h', 't', 't', 'p', 's']

end Uri

end Perception
