import Perception.Model.Artifact
import Perception.Session
import Perception.Web.Download

set_option autoImplicit false

/-! # Repositories

Where artifacts are kept: in a directory, or behind an address of the web. Files from the web are
kept in a cache, where they are looked for before they are asked for (`Repository.openFile`).
-/

namespace Perception

/-- Where artifacts are kept, as it is written, and where downloaded ones are. A repository on the
web has no directory. -/
structure Repository where
  base : String
  directory : Option Path
  cache : Path
  deriving DecidableEq, Repr

namespace Repository

/-- Are the artifacts behind an address of the web? -/
def isRemote (r : Repository) : Bool := r.directory.isNone

/-- The directory that a written base stands for, none if it is an address of the web. -/
def directoryOf (base : String) : HostM (Option Path) := do
  let u ← Host.parseUri base
  if u.isFile then return some (Path.ofChars (Uri.decodePath u.path))
  else if u.isWeb then return none
  else return some (← Host.expandHome (Path.ofString base))

/-- The repository of a base and a cache; without a cache, that of the settings. -/
def make (base cache : Datum) : SessionM Repository := do
  let directory ← Session.onHost (directoryOf base.shown)
  let cache ← match cache with
    | .null => Session.setting Settings.repositoryCache
    | c => pure c
  let path ← Session.onHost (Host.expandHome (← Session.pathOf cache))
  return ⟨base.shown, directory, path⟩

def ofSettings : SessionM Repository := do
  let d ← Session.setting Settings.repository
  make (d.get "base_uri") (d.get "cache_dir")

/-- The directory below which artifacts are on this machine. -/
def root (r : Repository) : Path := r.directory.getD r.cache

def resolve (r : Repository) (a : Artifact) : Path := r.root.join a.path

def fileOf (r : Repository) (a : Artifact) (name : String) : Path :=
  (r.resolve a).join (Path.ofString name)

def urlOf (r : Repository) (a : Artifact) (name : String) : String :=
  String.ofList (Text.dropEndWhile (· = '/') r.base.toList) ++ "/" ++ a.path.toString ++ "/" ++ name

/-- The path of a file of an artifact, which is downloaded if it is not on this machine. -/
def openFile (r : Repository) (a : Artifact) (name : String) : HostM Path := do
  let path := r.fileOf a name
  if ← Host.isFile path then return path
  else if r.isRemote then download (r.urlOf a name) path Host.patience
  else throw (.artifactMissing path.toString)

def describe (r : Repository) : String := s!"Repository({Text.quoted r.base})"

end Repository

end Perception
