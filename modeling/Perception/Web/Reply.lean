import Perception.Failure
import Perception.Number.Read
import Perception.Text.Blank
import Perception.Text.Utf8

set_option autoImplicit false

/-! # Replies from the web

What comes back when an address is asked for: a reply, or a mishap before there is one. A body is
read in blocks, and there may be a mishap while it is read (`blocks`, `Reply.breaksAfter`). Most
mishaps are failures of the request, which callers know how to report; but an address that a reply
leads on to may be refused, and that is a failure of another kind.
-/

namespace Perception

/-- What goes wrong between here and a server: the request fails, with a text, or something else
does. -/
inductive Mishap
  | request (text : String)
  | other (f : Failure)

/-- A reply: its status, headers and body. If `breaksAfter` is set, only so many bytes of the body
arrive before the mishap. -/
structure Reply where
  status : Nat
  reason : String
  headers : List (String × String)
  body : Bytes
  breaksAfter : Option (Nat × Mishap)

inductive Answer
  | reply (r : Reply)
  | failure (m : Mishap)

abbrev Web := String → Answer

/-- A web of some addresses; all others cannot be reached. -/
def Web.ofList (table : List (String × Answer)) : Web := fun url =>
  (table.lookup url).getD (.failure (.request "unreachable"))

namespace Mishap

def ofDownload (url : String) : Mishap → Failure
  | request text => .downloadFailed url text
  | other f => f

def ofReading (url : String) : Mishap → Failure
  | request text => .unreadableUrl url text
  | other f => f

/-- The failure of reading a body, where nobody reports it. -/
def bare : Mishap → Failure
  | request text => .requestFailed text
  | other f => f

end Mishap

namespace Reply

def statusError? (r : Reply) (url : String) : Option String :=
  if 400 ≤ r.status ∧ r.status < 500 then
    some s!"{r.status} Client Error: {r.reason} for url: {url}"
  else if 500 ≤ r.status ∧ r.status < 600 then
    some s!"{r.status} Server Error: {r.reason} for url: {url}"
  else none

/-- The value of a header, whatever the case of its name. The values of several are put together. -/
def header? (r : Reply) (name : String) : Option String :=
  match (r.headers.filter fun h => h.1.toLower = name.toLower).map Prod.snd with
  | [] => none
  | values => some (", ".intercalate values)

/-- The length that the reply announces, zero if it does not, `none` if that is no whole number. -/
def length? (r : Reply) : Option Int :=
  match r.header? "content-length" with
  | none => some 0
  | some s => Number.readInt? 10 s.toList

def arriving (r : Reply) : Bytes :=
  match r.breaksAfter with
  | some (n, _) => r.body.take n
  | none => r.body

def breaks (r : Reply) : Bool := r.breaksAfter.isSome

end Reply

/-- The bytes of a list in blocks of `size`, the last of which may be shorter. `fuel` is at least
the length. -/
def blocksOf (size : Nat) : Nat → Bytes → List Bytes
  | 0, _ => []
  | _, [] => []
  | fuel + 1, bs => bs.take size :: blocksOf size fuel (bs.drop size)

def blocks (size : Nat) (bs : Bytes) : List Bytes := blocksOf size bs.length bs

end Perception
