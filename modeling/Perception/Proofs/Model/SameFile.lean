import Perception.Model.Repository
import Perception.Proofs.Audio.Sources
import Perception.Proofs.Files.Written
import Perception.Proofs.Session
import Perception.Proofs.Uri.File

set_option autoImplicit false

/-! # One file under two names

The file at an absolute path has an address too. Only the address names a scheme
(`Path.parse?_uri`, `Path.parse?_toString`), but both lead to the same path: reading the address is
reading the file (`Path.run_fetch_uri`), and a repository at the address is the directory at the
path (`Repository.make_located`). All of it together is `Path.uri_sameFile`.
-/

namespace Perception

/-! ## Addresses and paths -/

namespace Path

variable {p : Path}

def uri (p : Path) : String := String.ofList (Uri.ofPath p.toString.toList)

/-- A path with one slash in front that can be written, without a character that no file name can
hold, or that counts for nothing in an address. -/
structure IsAddressable (p : Path) : Prop where
  written : p.IsWritten
  top : p.root = .top
  named : ∀ c ∈ p.toString.toList, c.toNat ≠ 0
  kept : ∀ c ∈ p.toString.toList, Uri.isIgnored c = false

theorem toList_toString_top (hp : p.IsWritten) (htop : p.root = .top) :
    ∃ rest, p.toString.toList = '/' :: rest ∧ rest.head? ≠ some '/' := by
  refine ⟨_, ?_, head?_intercalate (isName_of_isWritten hp)⟩
  rw [toList_toString p (by rw [htop]; exact fun h => nomatch h.1), htop]
  rfl

theorem IsAddressable.hasNul (hp : p.IsAddressable) : p.hasNul = false := by
  refine List.any_eq_false.mpr fun n hn hany => ?_
  obtain ⟨c, hc, hzero⟩ := List.any_eq_true.mp hany
  exact hp.named c (mem_toString hp.written hn hc) (of_decide_eq_true hzero)

/-- **The address of a file** has the scheme of files, and leads to the path. -/
theorem parse?_uri (hp : p.IsAddressable) :
    ∃ u, Uri.parse? p.uri.toList = some u ∧ u.scheme = ['f', 'i', 'l', 'e'] ∧
      Path.ofChars (Uri.decodePath u.path) = p := by
  obtain ⟨rest, hrest, -⟩ := toList_toString_top hp.written hp.top
  refine ⟨⟨['f', 'i', 'l', 'e'], [], Uri.encodePath ('/' :: rest)⟩, ?_, rfl, ?_⟩
  · rw [uri, String.toList_ofList, hrest]
    exact Uri.parse?_ofPath rest
  · dsimp only
    rw [Uri.decodePath_encodePath, ← hrest]
    exact ofString_toString hp.written

/-- **The path itself** names no scheme. -/
theorem parse?_toString (hp : p.IsAddressable) :
    ∃ u, Uri.parse? p.toString.toList = some u ∧ u.scheme = [] := by
  obtain ⟨rest, hrest, hhead⟩ := toList_toString_top hp.written hp.top
  have hkept := hp.kept
  rw [hrest] at hkept ⊢
  exact ⟨_, Uri.parse?_top hkept hhead, rfl⟩

/-- The address is absolute, and the path itself is not. -/
theorem isAbsoluteUri_uri (hp : p.IsAddressable) :
    isAbsoluteUri p.uri = .ok true ∧ isAbsoluteUri p.toString = .ok false := by
  obtain ⟨u, hu, hscheme, -⟩ := parse?_uri hp
  obtain ⟨v, hv, hnone⟩ := parse?_toString hp
  unfold isAbsoluteUri Uri.isAbsolute
  rw [hu, hv]
  dsimp only
  rw [hscheme, hnone]
  exact ⟨rfl, rfl⟩

/-! ## Reading -/

def LeadsToFile (p : Path) (h : Host) (c : Content) : Prop :=
  ∃ l, h.tree.locate h.here p = .ok l ∧ h.tree.get? l = some (.file c)

/-- **Reading the address** is reading the file, and asks for nothing. -/
theorem run_fetch_uri (hp : p.IsAddressable) (timeout : Datum) (h : Host) :
    (Host.fetch p.uri timeout).run h = (h.fileContent p, h) := by
  obtain ⟨u, hu, hscheme, hpath⟩ := parse?_uri hp
  have hfile : u.isFile = true := decide_eq_true hscheme
  rw [Host.run_fetch_file h timeout hu hfile, hpath]

/-- What is read is what the path leads to. -/
theorem fileContent_eq_ok (hp : p.IsAddressable) {h : Host} {c : Content} :
    h.fileContent p = .ok c ↔ p.LeadsToFile h c := by
  have hrun : ((Host.read p).run h).1 = h.fileContent p := congrArg Prod.fst (Host.run_read h p)
  rw [LeadsToFile, ← FileTree.read_eq_ok, ← hrun]
  exact Host.run_read_eq_ok.trans ⟨And.right, fun hread => ⟨hp.hasNul, hread⟩⟩

/-- A path that leads to no file is a failure to read. -/
theorem fileContent_isIO (hp : p.IsAddressable) {h : Host} (hnone : ∀ c, ¬p.LeadsToFile h c) :
    ∃ e, h.fileContent p = .error e ∧ e.kind.isIO = true := by
  cases hread : h.fileContent p with
  | ok c => exact absurd ((fileContent_eq_ok hp).mp hread) (hnone c)
  | error e =>
      refine ⟨e, rfl, Bool.not_eq_false _ ▸ fun hio => ?_⟩
      have hnul := Host.fileContent_notIO hread hio
      rw [hp.hasNul] at hnul
      cases hnul

end Path

/-! ## Repositories -/

namespace Repository

open Outcome

variable {p : Path}

/-- Where downloaded artifacts are kept: at the path that a loose value names, or else where the
settings say. -/
def cachePath (cache : Datum) : SessionM Path := do
  let cache ← match cache with
    | .null => Session.setting Settings.repositoryCache
    | c => pure c
  Session.onHost (Host.expandHome (← Session.pathOf cache))

/-- A repository has its base settled first, and then its cache. -/
theorem make_eq (base cache : Datum) :
    make base cache = Session.onHost (directoryOf base.shown) >>= fun directory =>
      (fun path => ⟨base.shown, directory, path⟩) <$> cachePath cache := by
  unfold make cachePath
  cases cache <;> simp only [map_eq_pure_bind, bind_assoc, pure_bind]

theorem make_of_directoryOf {base : String} {directory : Option Path}
    (h : directoryOf base = pure directory) (cache : Datum) :
    make (.text base) cache
      = (fun path => ⟨base, directory, path⟩) <$> cachePath cache := by
  have hshown : (Datum.text base).shown = base := rfl
  have hpure : Session.onHost (pure directory : HostM (Option Path)) = pure directory := rfl
  rw [make_eq, hshown, h, hpure, pure_bind]

/-- The address of a file stands for the path of the file. -/
theorem directoryOf_uri (hp : p.IsAddressable) : directoryOf p.uri = pure (some p) := by
  obtain ⟨u, hu, hscheme, hpath⟩ := Path.parse?_uri hp
  have hparse : Host.parseUri p.uri = pure u := by rw [Host.parseUri, hu]
  have hfile : u.isFile = true := decide_eq_true hscheme
  rw [directoryOf, hparse, pure_bind, if_pos hfile, hpath]

/-- A path stands for itself. -/
theorem directoryOf_toString (hp : p.IsAddressable) : directoryOf p.toString = pure (some p) := by
  obtain ⟨u, hu, hscheme⟩ := Path.parse?_toString hp
  have hparse : Host.parseUri p.toString = pure u := by rw [Host.parseUri, hu]
  have hfile : ¬u.isFile = true := by
    rw [Uri.isFile, hscheme]
    decide
  have hweb : ¬u.isWeb = true := by
    rw [Uri.isWeb, hscheme]
    decide
  -- only a path from where one stands can start with a home directory
  have hhome : Host.expandHome p = pure p := by
    unfold Host.expandHome
    rw [hp.top]
  rw [directoryOf, hparse, pure_bind, if_neg hfile, if_neg hweb,
    Path.ofString_toString hp.written, hhome, pure_bind]

/-- A repository in a directory comes if and only if its cache does. -/
theorem make_located {written : String} (hdir : directoryOf written = pure (some p)) (cache : Datum)
    (s : Session) :
    ∃ o, (make (.text written) cache).run s = (o, ((cachePath cache).run s).2) ∧
      (∀ r, o = .ok r ↔ ((cachePath cache).run s).1 = .ok r.cache ∧ r.base = written ∧
        r.isRemote = false ∧ r.directory = some p) ∧
      ∀ e, o = .error e ↔ ((cachePath cache).run s).1 = .error e := by
  rw [make_of_directoryOf hdir, run_map]
  refine ⟨_, rfl, fun r => ?_, fun e => ?_⟩
  · cases ((cachePath cache).run s).1 with
    | error e => exact ⟨nofun, fun h => nomatch h.1⟩
    | ok path =>
        constructor
        · intro h
          cases h
          exact ⟨rfl, rfl, rfl, rfl⟩
        · obtain ⟨base, directory, kept⟩ := r
          rintro ⟨hpath, hbase, -, hdirectory⟩
          cases hpath
          cases hbase
          cases hdirectory
          rfl
  · cases ((cachePath cache).run s).1 with
    | error e' =>
        constructor <;>
        · intro h
          cases h
          rfl
    | ok path => exact ⟨nofun, nofun⟩

end Repository

namespace Path

variable {p : Path}

/-- **One file under two names.** Of a path and its address only the second is absolute. Reading the
address gives the content of the file and asks the web for nothing, and is a failure to read if there
is no file. A repository at the address and one at the path are both in the directory that the path
leads to. -/
theorem uri_sameFile (hp : p.IsAddressable) :
    isAbsoluteUri p.uri = .ok true ∧ isAbsoluteUri p.toString = .ok false ∧
    (∀ timeout h, ∃ o, (Host.fetch p.uri timeout).run h = (o, h) ∧
      (∀ c, o = .ok c ↔ p.LeadsToFile h c) ∧
      ((∀ c, ¬p.LeadsToFile h c) → ∃ e, o = .error e ∧ e.kind.isIO = true)) ∧
    ∀ written ∈ [p.uri, p.toString], ∀ cache s,
      ∃ o, (Repository.make (.text written) cache).run s
          = (o, ((Repository.cachePath cache).run s).2) ∧
        (∀ r, o = .ok r ↔ ((Repository.cachePath cache).run s).1 = .ok r.cache ∧
          r.base = written ∧ r.isRemote = false ∧ r.directory = some p) ∧
        ∀ e, o = .error e ↔ ((Repository.cachePath cache).run s).1 = .error e := by
  obtain ⟨habsolute, hrelative⟩ := isAbsoluteUri_uri hp
  refine ⟨habsolute, hrelative, fun timeout h => ?_, fun written hwritten cache s => ?_⟩
  · exact ⟨_, run_fetch_uri hp timeout h, fun c => fileContent_eq_ok hp, fileContent_isIO hp⟩
  · have hdir : Repository.directoryOf written = pure (some p) := by
      rcases List.mem_cons.mp hwritten with rfl | hwritten
      · exact Repository.directoryOf_uri hp
      · rw [List.mem_singleton.mp hwritten]
        exact Repository.directoryOf_toString hp
    exact Repository.make_located hdir cache s

/-- The name of a file with marks of addresses in it, and a letter beyond ASCII. -/
def oddName : String := String.ofList
  ['a', ' ', 'b', '%', '2', '0', 'é', '#', '?', ';', ':', '[']

def oddPath : Path := ⟨.top, ["srv", oddName]⟩

def oddHost : Host := .offline ⟨[(["srv"], .directory), (["srv", oddName], .file (.bytes [7]))]⟩

theorem toList_oddPath : oddPath.toString.toList = ['/', 's', 'r', 'v', '/', 'a', ' ', 'b', '%', '2',
    '0', 'é', '#', '?', ';', ':', '['] := by
  decide

theorem isAddressable_oddPath : oddPath.IsAddressable where
  written := ⟨oddPath.toString, by rw [ofString, toList_oddPath]; rfl⟩
  top := rfl
  named := by
    rw [toList_oddPath]
    simp
  kept := by
    rw [toList_oddPath]
    simp [Uri.isIgnored]

example : oddPath.uri = "file:///srv/a%20b%2520%C3%A9%23%3F%3B%3A%5B" := by
  rw [uri, toList_oddPath]
  decide

theorem uri_sameFile_odd :
    oddPath.IsAddressable ∧ oddPath.LeadsToFile oddHost (.bytes [7]) ∧
      (Host.fetch oddPath.uri Host.patience).run oddHost = (.ok (.bytes [7]), oddHost) ∧
      ∀ written ∈ [oddPath.uri, oddPath.toString], ∃ r,
        ((Repository.make (.text written) (.text "cache")).run (.start oddHost)).1 = .ok r ∧
          r.isRemote = false ∧ r.directory = some oddPath := by
  have hleads : oddPath.LeadsToFile oddHost (.bytes [7]) := ⟨["srv", oddName], by rfl, by rfl⟩
  obtain ⟨-, -, hread, hmake⟩ := uri_sameFile isAddressable_oddPath
  obtain ⟨o, hfetch, hiff, -⟩ := hread Host.patience oddHost
  rw [(hiff _).mpr hleads] at hfetch
  refine ⟨isAddressable_oddPath, hleads, hfetch, fun written hwritten => ?_⟩
  obtain ⟨o, hrun, hok, -⟩ := hmake written hwritten (.text "cache") (.start oddHost)
  have hcache : ((Repository.cachePath (.text "cache")).run (.start oddHost)).1
      = .ok ⟨.relative, ["cache"]⟩ := rfl
  refine ⟨⟨written, some oddPath, ⟨.relative, ["cache"]⟩⟩, ?_, rfl, rfl⟩
  rw [hrun]
  exact (hok _).mpr ⟨hcache, rfl, rfl, rfl⟩

end Path

end Perception
