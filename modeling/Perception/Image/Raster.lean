import Perception.Image.Basic

set_option autoImplicit false

/-! # Rasters

An image as a record of its mode, its size and its bytes in hexadecimal form, row by row.
-/

namespace Perception.Image

def toRaster (im : Image) : Datum :=
  Datum.object [
    ("mode", im.mode.name),
    ("size", .list [im.width, im.height]),
    ("hex", Bytes.toHex im.bytes)]

def ofRaster? (d : Datum) : Option Image :=
  match d.get "mode", d.get "size", d.get "hex" with
  | .text mode, .list [.int w, .int h], .text hex =>
      (Mode.ofName? mode).bind fun m => ofBytes? m w.toNat h.toNat (Bytes.ofHex hex)
  | _, _, _ => none

end Perception.Image
