import Perception.Audio.Toolkit
import Perception.Files.Tree
import Perception.Uri.Percent
import Perception.Web.Reply

set_option autoImplicit false

/-! # The machine and the web

What the library reaches outside itself: the files of the machine it runs on, the addresses of the
web, a journal, and what other libraries do that have failures of their own (the bar of a download,
the decoding of audio). A `Host` is the state of all this; `HostM` computations change it and may
fail, and what they changed before failing stays changed.
-/

namespace Perception

inductive Severity
  | debug | info | warning | error | critical
  deriving DecidableEq, Repr

def Severity.name : Severity → String
  | debug => "DEBUG"
  | info => "INFO"
  | warning => "WARNING"
  | error => "ERROR"
  | critical => "CRITICAL"

structure Note where
  severity : Severity
  source : String
  text : String
  deriving DecidableEq, Repr

/-- An address asked for, whether its body was to be read in blocks, and how long to wait. -/
structure Request where
  url : String
  inBlocks : Bool
  timeout : Datum

/-- What a bar that shows how far a download has got fails with, if it does, by the length that was
announced and the number of bytes that came. -/
abbrev ProgressBar := Int → Nat → Option Failure

def ProgressBar.hidden : ProgressBar := fun _ _ => none

/-- A bar that is drawn compares the bytes that came with the length as a fraction. -/
def ProgressBar.drawn : ProgressBar := fun total _ =>
  if Number.exceedsFloat total then some (.plain .overflow) else none

structure Host where
  tree : FileTree
  /-- The directory one stands in. -/
  here : Location
  /-- The home directory of each user; one's own under the empty name. -/
  homes : List (String × String)
  web : Web
  requests : List Request
  /-- For each reply that came, whether it was closed. -/
  closed : List Bool
  journal : List Note
  bar : ProgressBar
  sound : Audio.Toolkit

/-- A machine with some files from which no address can be reached. One stands at its top. -/
def Host.offline (tree : FileTree) : Host :=
  ⟨tree, [], [], .ofList [], [], [], [], .hidden, .waves⟩

abbrev HostM := ExceptT Failure (StateM Host)

namespace Host

/-- A system cause becomes a failure that names the file. -/
def ofSystem {α : Type} (p : Path) : Except SystemCause α → HostM α
  | .ok a => pure a
  | .error e => throw (.system e p.toString)

def note (severity : Severity) (source text : String) : HostM Unit :=
  modify fun h => { h with journal := h.journal ++ [Note.mk severity source text] }

/-- A path written with `~` in front, with the home directory of a user in its place. -/
def expandHome (p : Path) : HostM Path := do
  match p.root, p.names with
  | .relative, n :: rest =>
      match n.toList with
      | '~' :: user =>
          match (← get).homes.lookup (String.ofList user) with
          | some home =>
              let home := Path.ofString home
              return { home with names := home.names ++ rest }
          | none => throw (.plain (if user.contains (Char.ofNat 0) then .value else .runtime))
      | _ => return p
  | _, _ => return p

def checkPath (p : Path) : HostM Unit :=
  if p.hasNul then throw (.plain .value) else pure ()

def read (p : Path) : HostM Content := do
  checkPath p
  let h ← get
  ofSystem p (h.tree.read h.here p)

def isFile (p : Path) : HostM Bool := do
  if p.hasNul then return false
  let h ← get
  ofSystem p (h.tree.isFile h.here p)

def isDirectory (p : Path) : HostM Bool := do
  if p.hasNul then return false
  let h ← get
  ofSystem p (h.tree.isDirectory h.here p)

/-- The bytes of a file. A stored image or model counts as the mark it starts with, which is no
text. -/
def bytesOf : Content → Bytes
  | .bytes bs => bs
  | .picture _ => [0x89, 0x50, 0x4E, 0x47, 0x0D, 0x0A, 0x1A, 0x0A]
  | .model _ => [0x50, 0x4B, 0x03, 0x04, 0xFF]

/-- The text of a file, with all line ends folded. -/
def readText (p : Path) : HostM String := do
  match (bytesOf (← read p)).toString? with
  | some s => return String.ofList (Text.foldNewlines s.toList)
  | none => throw (.plain .undecodable)

/-- Makes a directory and those above it, unless they are there already. -/
def makeDirectories (p : Path) : HostM Unit := do
  checkPath p
  let h ← get
  let (tree, outcome) := h.tree.makeDirectories h.here p
  set { h with tree := tree }
  ofSystem p outcome

def write (p : Path) (c : Content) : HostM Unit := do
  checkPath p
  let h ← get
  let tree ← ofSystem p (h.tree.write h.here p c)
  set { h with tree := tree }

def parseUri (url : String) : HostM Uri :=
  match Uri.parse? url.toList with
  | some u => pure u
  | none => throw (.plain .value)

/-- How long to wait for a reply, in seconds. -/
def patience : Datum := .int 30

def ask (url : String) (inBlocks : Bool) (timeout : Datum) : HostM Answer := do
  let h ← get
  let answer := h.web url
  let came := match answer with
    | .reply _ => [false]
    | .failure _ => []
  set { h with
    requests := h.requests ++ [Request.mk url inBlocks timeout]
    closed := h.closed ++ came }
  return answer

def closeLast (h : Host) : Host :=
  { h with closed := h.closed.dropLast ++ (if h.closed.isEmpty then [] else [true]) }

/-- The content behind an address: a file of this machine, or the body of a reply. -/
def fetch (url : String) (timeout : Datum) : HostM Content := do
  let u ← parseUri url
  if u.isFile then read (Path.ofChars (Uri.decodePath u.path))
  else
    match ← ask url false timeout with
    | .failure m => throw (m.ofReading url)
    | .reply r =>
        match r.statusError? url with
        | some text => throw (.unreadableUrl url text)
        | none =>
            match r.breaksAfter with
            | some (_, m) => throw m.bare
            | none => return .bytes r.body

end Host

/-- Does a text name its scheme, as an address does and a path does not? -/
def isAbsoluteUri (url : String) : Outcome Bool :=
  match Uri.parse? url.toList with
  | some u => .ok u.isAbsolute
  | none => .error (.plain .value)

end Perception
