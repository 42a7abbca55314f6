import Perception.Session

set_option autoImplicit false

/-! # Pictures from files and addresses

A picture is read from a file (`Image.load`), or from an address or else a file that a text names
(`Image.fetch`). Content that is no picture is refused.
-/

namespace Perception.Image

def ofContent : Content → Outcome Image
  | .picture im => .ok im
  | _ => .error (.plain .unknownPicture)

def load (path : Path) : HostM Image := do
  if !(← Host.isFile path) then throw (.pictureMissing path.toString)
  match ofContent (← Host.read path) with
  | .ok im => return im
  | .error e => throw e

/-- The picture behind an address, or in the file that the text names. -/
def fetch (url : String) : HostM Image := do
  let u ← Host.parseUri url
  if u.isAbsolute then
    match ofContent (← Host.fetch url Host.patience) with
    | .ok im => return im
    | .error e => throw e
  else load (Path.ofString url)

end Perception.Image
