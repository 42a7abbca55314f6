set_option autoImplicit false

/-! # Blank space and line ends

The characters that count as blank, cutting them off both ends of a text, and splitting a text
into lines. Two notions of line end are in use: reading a file in text mode folds `\r\n` and `\r`
into `\n` (`foldNewlines`), and splitting into lines also breaks at the vertical separators of
Unicode (`lines`).
-/

namespace Perception.Text

/-- The code points with the Unicode property White_Space, and the four ASCII separators. -/
def isBlank (c : Char) : Bool :=
  let n := c.toNat
  (9 ≤ n && n ≤ 13) || (0x1c ≤ n && n ≤ 0x20) || n == 0x85 || n == 0xa0 || n == 0x1680
    || (0x2000 ≤ n && n ≤ 0x200a) || n == 0x2028 || n == 0x2029 || n == 0x202f || n == 0x205f
    || n == 0x3000

/-- The characters that end a line on their own. -/
def isLineEnd (c : Char) : Bool :=
  let n := c.toNat
  (10 ≤ n && n ≤ 13) || (0x1c ≤ n && n ≤ 0x1e) || n == 0x85 || n == 0x2028 || n == 0x2029

/-- Cut `p`-characters off the end. -/
def dropEndWhile (p : Char → Bool) (cs : List Char) : List Char :=
  (cs.reverse.dropWhile p).reverse

/-- Cut `p`-characters off both ends. -/
def trimWhile (p : Char → Bool) (cs : List Char) : List Char :=
  dropEndWhile p (cs.dropWhile p)

def trim (cs : List Char) : List Char := trimWhile isBlank cs

/-- The lines of a text without their ends; `\r\n` is one end, and a final end opens no line. -/
def lines : List Char → List (List Char)
  | [] => []
  | '\r' :: '\n' :: rest => [] :: lines rest
  | c :: rest =>
      if isLineEnd c then [] :: lines rest
      else match lines rest with
        | [] => [[c]]
        | l :: ls => (c :: l) :: ls

/-- `\r\n` and `\r` become `\n`, as on reading a file in text mode. -/
def foldNewlines : List Char → List Char
  | [] => []
  | '\r' :: '\n' :: rest => '\n' :: foldNewlines rest
  | '\r' :: rest => '\n' :: foldNewlines rest
  | c :: rest => c :: foldNewlines rest

/-- The lines of a text with blanks cut off, less those that are blank throughout. -/
def nonBlankLines (cs : List Char) : List (List Char) :=
  ((lines cs).map trim).filter (fun l => !l.isEmpty)

/-- The names a text lists, one to a non-blank line. -/
def namesIn (s : String) : List String := (nonBlankLines s.toList).map String.ofList

/-- Does `pre` stand at the head of the text? If so, what follows it. -/
def after? : List Char → List Char → Option (List Char)
  | [], cs => some cs
  | _ :: _, [] => none
  | p :: ps, c :: cs => if p = c then after? ps cs else none

/-- Split at every character that satisfies `p`, dropping it; a text has one more part than it
has such characters. -/
def splitAt (p : Char → Bool) : List Char → List (List Char)
  | [] => [[]]
  | c :: cs =>
      if p c then [] :: splitAt p cs
      else match splitAt p cs with
        | [] => [[c]]
        | l :: ls => (c :: l) :: ls

def cutAt? (p : Char → Bool) : List Char → Option (List Char × List Char)
  | [] => none
  | c :: cs => if p c then some ([], cs) else (cutAt? p cs).map fun (a, b) => (c :: a, b)

/-- The text before and after the last character that satisfies `p`, if there is one. -/
def cutAtLast? (p : Char → Bool) (cs : List Char) : Option (List Char × List Char) :=
  (cutAt? p cs.reverse).map fun (a, b) => (b.reverse, a.reverse)

end Perception.Text
