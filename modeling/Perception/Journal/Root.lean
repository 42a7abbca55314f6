import Perception.Failure

set_option autoImplicit false

/-! # The journal's root

Entries reach a reader once the root of the journal has a handler. Setting the journal up
(`JournalRoot.setUp`) installs one, and sets how grave entries must be; once there is a handler,
setting up does nothing, whatever it is asked for.
-/

namespace Perception

/-- How grave entries must be, and whether somebody reads them. -/
structure JournalRoot where
  level : Datum
  isRead : Bool

namespace JournalRoot

/-- Before anything is set up, warnings and worse pass. -/
def initial : JournalRoot := ⟨.int 30, false⟩

def layout : String := "%(asctime)s %(levelname)s %(name)s: %(message)s"

def levelNames : List (String × Int) :=
  [("CRITICAL", 50), ("FATAL", 50), ("ERROR", 40), ("WARN", 30), ("WARNING", 30), ("INFO", 20),
    ("DEBUG", 10), ("NOTSET", 0)]

/-- A letter in upper case: the letters of ASCII, and the two others whose upper case is one. -/
def upper (c : Char) : Char :=
  if c.toNat = 0x131 then 'I' else if c.toNat = 0x17F then 'S' else c.toUpper

def levelOfName? (s : String) : Option Int :=
  levelNames.lookup (String.ofList (s.toList.map upper))

/-- The level that a loose value asks for; nothing at all asks for none. -/
def levelOf (d : Datum) : Outcome (Option Datum) :=
  match d with
  | .null => .ok none
  | .int _ | .bool _ => .ok (some d)
  | .text s =>
      match levelOfName? s with
      | some i => .ok (some (.int i))
      | none => .error (.plain .value)
  | _ => .error (.plain .type)

/-- Installs a handler unless there is one, and then sets the level. A level that there is not is
noticed only after the handler is in place. -/
def setUp (level : Datum) (r : JournalRoot) : JournalRoot × Outcome Unit :=
  if r.isRead then (r, .ok ())
  else
    match levelOf level with
    | .ok (some l) => (⟨l, true⟩, .ok ())
    | .ok none => ({ r with isRead := true }, .ok ())
    | .error e => ({ r with isRead := true }, .error e)

/-- Setting up again changes nothing. -/
theorem setUp_of_isRead (level : Datum) (r : JournalRoot) (h : r.isRead = true) :
    r.setUp level = (r, .ok ()) := by
  simp [setUp, h]

end JournalRoot

end Perception
