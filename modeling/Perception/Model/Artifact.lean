import Perception.Failure
import Perception.Files.Path

set_option autoImplicit false

/-! # Artifacts

An artifact is what a repository keeps under a group, a name and a version. The group is a path
whose names are written with dots between them; the directory of an artifact is that of its group,
extended by its name and its version (`Artifact.path`).
-/

namespace Perception

structure Artifact where
  group : String
  id : String
  version : String
  deriving DecidableEq, Repr

namespace Artifact

/-- The group cut at its dots, the name and the version. -/
def segments (a : Artifact) : List String :=
  (Text.splitAt (· = '.') a.group.toList).map String.ofList ++ [a.id, a.version]

def path (a : Artifact) : Path := Path.extend ⟨.relative, []⟩ a.segments

def ofData (ds : List Datum) : Outcome Artifact :=
  match ds with
  | [.text group, .text id, .text version] => .ok ⟨group, id, version⟩
  | [.text _, _, _] => .error (.plain .type)
  | [_, _, _] => .error (.plain .attribute)
  | _ => .error (.plain .type)

/-- The file of an artifact that loose values name: what names the artifact, and the name of the
file. -/
def fileOfData (ds : List Datum) : Outcome (Artifact × String) :=
  match ds with
  | [group, id, version, name] => do
      let a ← ofData [group, id, version]
      match name with
      | .text s => return (a, s)
      | _ => throw (.plain .type)
  | _ => .error (.plain .type)

end Artifact

end Perception
