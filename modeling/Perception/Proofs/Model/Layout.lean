import Perception.Proofs.Model.Failures
import Perception.Proofs.Text.Split

set_option autoImplicit false

/-! # How artifacts are laid out

Each artifact with plain names has a directory of its own, below that of the repository: its names
are put behind those of the repository, one after another, and the artifact can be told from them
(`Artifact.segments_inj`). That is so of the paths and of what they lead to
(`Repository.locate_resolve`). A file of the artifact is asked for at most once, at the address that
has the same names behind the base (`Repository.openFile_asks`). All of it together is
`Repository.resolve_layout`.
-/

namespace Perception

/-! ## Names -/

namespace Artifact

variable {a b : Artifact}

/-- **The names of an artifact** are those that its group has between dots, its own and that of its
version. -/
theorem exists_segments (a : Artifact) :
    ∃ gs : List String, a.segments = gs ++ [a.id, a.version] ∧ gs ≠ [] ∧
      ".".intercalate gs = a.group ∧ ∀ g ∈ gs, '.' ∉ g.toList := by
  refine ⟨_, rfl, ?_, ?_, fun g hg => ?_⟩
  · exact fun hnil => Text.splitAt_ne_nil _ _ (List.map_eq_nil_iff.mp hnil)
  · refine String.toList_inj.mp ?_
    have hparts (parts : List (List Char)) :
        (parts.map String.ofList).map String.toList = parts := by
      simp [Function.comp_def]
    rw [String.toList_intercalate, hparts]
    exact Text.intercalate_splitAt '.' a.group.toList
  · obtain ⟨part, hpart, rfl⟩ := List.mem_map.mp hg
    rw [String.toList_ofList]
    exact Text.not_mem_of_splitAt _ part hpart

/-- An artifact can be told from its names. -/
theorem segments_inj : a.segments = b.segments ↔ a = b := by
  refine ⟨fun h => ?_, congrArg segments⟩
  obtain ⟨gs, hgs, -, hgroup, -⟩ := a.exists_segments
  obtain ⟨gs', hgs', -, hgroup', -⟩ := b.exists_segments
  rw [hgs, hgs'] at h
  obtain ⟨rfl, hlast⟩ := List.append_inj' h rfl
  obtain ⟨group, id, version⟩ := a
  obtain ⟨group', id', version'⟩ := b
  cases hlast
  cases hgroup.symm.trans hgroup'
  rfl

theorem IsPlain.noDots (ha : a.IsPlain) : ".." ∉ a.segments :=
  fun hmem => (ha _ hmem).notDots rfl

end Artifact

/-- A path that goes on down where another ends. -/
def Path.IsBelow (p q : Path) : Prop :=
  ∃ ns : List String, ns ≠ [] ∧ ".." ∉ ns ∧ p = ⟨q.root, q.names ++ ns⟩

/-! ## Requests -/

namespace Download

variable {job : Job} {h₀ h : Host}

def Job.request (job : Job) : Request := ⟨job.url, true, job.timeout⟩

/-- What was asked for before each phase: nothing until the request, and its address from then on. A
download that ends without asking has failed. -/
def AsksOnce (job : Job) (h₀ h : Host) : Phase → Prop
  | .makeParents | .makeTemp | .request _ => h.requests = h₀.requests ∧ h.web = h₀.web
  | .write .. | .move _ => h.requests = h₀.requests ++ [job.request]
  | .removeTemp _ result | .done result =>
      h.requests = h₀.requests ++ [job.request] ∨
        h.requests = h₀.requests ∧ ∃ e, result = .error e

theorem asksOnce_makeParents (hh : h.requests = h₀.requests ∧ h.web = h₀.web) :
    AsksOnce job h₀ (step job h .makeParents).1 (step job h .makeParents).2 := by
  unfold step
  dsimp only
  have hhost := Host.host_run_makeDirectories h job.output.parent
  rcases hrun : (Host.makeDirectories job.output.parent).run h with ⟨_ | _, h'⟩
  · rw [hrun] at hhost
    exact Or.inr ⟨(congrArg Host.requests hhost).trans hh.1, _, rfl⟩
  · rw [hrun] at hhost
    exact ⟨(congrArg Host.requests hhost).trans hh.1, (congrArg Host.web hhost).trans hh.2⟩

theorem asksOnce_onReply (hasked : h.requests = h₀.requests ++ [job.request]) (temp : Location)
    (r : Reply) : AsksOnce job h₀ (onReply job h temp r).1 (onReply job h temp r).2 := by
  have hclosed : h.closeLast.requests = h₀.requests ++ [job.request] := hasked
  rcases onReply_cases job h temp r with ⟨f, -, heq⟩ | ⟨-, ⟨e, -, heq⟩ | ⟨t, -, heq⟩⟩
  · rw [heq]
    exact Or.inl hclosed
  · rw [heq]
    exact Or.inl hclosed
  · rw [heq]
    exact hasked

/-- **A step asks for the address of the download**, and only in its turn. -/
theorem asksOnce_step (h : Host) (phase : Phase) (hasks : AsksOnce job h₀ h phase) :
    AsksOnce job h₀ (step job h phase).1 (step job h phase).2 := by
  cases phase with
  | makeParents => exact asksOnce_makeParents hasks
  | makeTemp =>
      unfold step
      dsimp only
      split
      · exact Or.inr ⟨hasks.1, _, rfl⟩
      · exact hasks
  | request temp =>
      -- the one request of the download is added here
      have hasked : (asking job h).requests = h₀.requests ++ [job.request] := by
        rw [← hasks.1]
        rfl
      rw [step_request]
      cases h.web job.url with
      | failure m => exact Or.inl hasked
      | reply r => exact asksOnce_onReply hasked temp r
  | write temp bs failing =>
      match bs, failing with
      | _ :: _, _ => exact hasks
      | [], some _ => exact Or.inl hasks
      | [], none => exact hasks
  | move temp => exact Or.inl ((moveInto_cases job h temp).1.trans hasks)
  | removeTemp temp result => exact hasks
  | done result => exact hasks

/-- **A download asks once at most**, and for its address. -/
theorem download_asksOnce (url : String) (output : Path) (timeout : Datum) (h : Host) :
    AsksOnce ⟨url, output, timeout⟩ h (download url output timeout h).2
      (.done (download url output timeout h).1) := by
  let job : Job := ⟨url, output, timeout⟩
  have hstart : AsksOnce job h h .makeParents := ⟨rfl, rfl⟩
  exact run_keeps asksOnce_step (fun h temp hrequest => hrequest.2) (stepsFor h.web url) hstart
    (stepsLeft_makeParents job h)

end Download

namespace Repository

open FileTree

variable {r : Repository} {a b : Artifact}

/-- **A file is asked for once at most**: it is found without asking, or its address is asked for, or
the retrieval fails. -/
theorem openFile_asks (r : Repository) (a : Artifact) (n : String) (h : Host) :
    ((r.openFile a n).run h).2.requests = h.requests ∧
        (((Host.isFile (r.fileOf a n)).run h).1 = .ok true ∨
          ∃ e, ((r.openFile a n).run h).1 = .error e) ∨
      ((r.openFile a n).run h).2.requests
        = h.requests ++ [⟨r.urlOf a n, true, Host.patience⟩] := by
  have hopened := r.opened_openFile a n h
  generalize (r.openFile a n).run h = result at hopened ⊢
  cases hopened with
  | refused => exact Or.inl ⟨rfl, Or.inr ⟨_, rfl⟩⟩
  | found hsearch => exact Or.inl ⟨rfl, Or.inl hsearch⟩
  | downloaded =>
      have hasks := Download.download_asksOnce (r.urlOf a n) (r.fileOf a n) Host.patience h
      exact hasks.symm.imp_left (And.imp_right Or.inr)
  | missing => exact Or.inl ⟨rfl, Or.inr ⟨_, rfl⟩⟩

/-! ## Directories -/

/-- The directory of an artifact has its names behind those of the root. -/
theorem resolve_inj (ha : a.IsPlain) (hb : b.IsPlain) : r.resolve a = r.resolve b ↔ a = b := by
  refine ⟨fun h => ?_, congrArg r.resolve⟩
  rw [resolve_plain ha, resolve_plain hb] at h
  exact Artifact.segments_inj.mp (List.append_cancel_left (Path.mk.inj h).2)

/-- **What the directory leads to** is below what the root leads to. -/
theorem locate_resolve (ha : a.IsPlain) {t : FileTree} {here l : Location}
    (hl : t.locate here (r.resolve a) = .ok l) :
    ∃ k, t.locate here r.root = .ok k ∧ l = k ++ a.segments := by
  have hstart : start here ⟨r.root.root, r.root.names ++ a.segments⟩ = start here r.root := rfl
  rw [resolve_plain ha, locate_eq, hstart, walk_append] at hl
  cases hk : walk t (start here r.root) r.root.names with
  | error e =>
      rw [hk] at hl
      cases hl
  | ok k =>
      rw [hk] at hl
      exact ⟨k, hk, eq_append_of_walk ha.noDots hl⟩

/-- How the directory of an artifact and the addresses of its files are made from its names. -/
structure LaidOut (r : Repository) (a : Artifact) : Prop where
  /-- The names that the group has between dots, that of the artifact and that of its version. -/
  names : ∃ gs : List String, a.segments = gs ++ [a.id, a.version] ∧ gs ≠ [] ∧
    ".".intercalate gs = a.group ∧ ∀ g ∈ gs, '.' ∉ g.toList
  directory : r.resolve a = ⟨r.root.root, r.root.names ++ a.segments⟩
  below : (r.resolve a).IsBelow r.root
  located : ∀ (t : FileTree) (here l : Location), t.locate here (r.resolve a) = .ok l →
    ∃ k, t.locate here r.root = .ok k ∧ l = k ++ a.segments
  /-- If anything is asked for, it is the base without the slashes at its end, and behind it the same
  names and that of the file. -/
  asked : r.isRemote = true → ∃ stem slashes : List Char, r.base.toList = stem ++ slashes ∧
    (∀ c ∈ slashes, c = '/') ∧ stem.getLast? ≠ some '/' ∧
    ∀ (n : String) (h : Host),
      ((r.openFile a n).run h).2.requests = h.requests ∧
          (((Host.isFile (r.fileOf a n)).run h).1 = .ok true ∨
            ∃ e, ((r.openFile a n).run h).1 = .error e) ∨
        ((r.openFile a n).run h).2.requests = h.requests ++
          [⟨String.ofList stem ++ "/" ++ "/".intercalate a.segments ++ "/" ++ n, true,
            Host.patience⟩]

theorem laidOut_of_isPlain (r : Repository) (ha : a.IsPlain) : r.LaidOut a where
  names := a.exists_segments
  directory := resolve_plain ha
  below := ⟨a.segments, a.segments_ne_nil, ha.noDots, resolve_plain ha⟩
  located _ _ _ := locate_resolve ha
  asked _ := by
    obtain ⟨stem, slashes, hbase, hslashes, hstem, hurl⟩ := urlOf_plain (r := r) ha
    refine ⟨stem, slashes, hbase, hslashes, hstem, fun n h => ?_⟩
    rw [← hurl n]
    exact r.openFile_asks a n h

/-- **The layout of a repository.** Its root is its cache if it is on the web, and its directory
otherwise. Artifacts with plain names are laid out below that, each in a directory of its own. -/
theorem resolve_layout (r : Repository) :
    (r.isRemote = true → r.root = r.cache) ∧ (r.isRemote = false → r.directory = some r.root) ∧
    (∀ a : Artifact, a.IsPlain → r.LaidOut a) ∧
    ∀ a b : Artifact, a.IsPlain → b.IsPlain →
      (r.resolve a = r.resolve b ↔ a = b) ∧
      ∀ (t : FileTree) (here l : Location), t.locate here (r.resolve a) = .ok l →
        t.locate here (r.resolve b) = .ok l → a = b := by
  refine ⟨fun hremote => ?_, fun hlocal => ?_, fun a ha => r.laidOut_of_isPlain ha,
    fun a b ha hb => ⟨resolve_inj ha hb, fun t here l hla hlb => ?_⟩⟩
  · rw [root, Option.isNone_iff_eq_none.mp hremote]
    rfl
  · obtain ⟨d, hd⟩ := Option.isSome_iff_exists.mp (Option.isNone_eq_false_iff.mp hlocal)
    rw [root, hd]
    rfl
  · -- the root leads to one place, so the names behind it are the same
    obtain ⟨k, hk, rfl⟩ := locate_resolve ha hla
    obtain ⟨k', hk', heq⟩ := locate_resolve hb hlb
    cases hk.symm.trans hk'
    exact Artifact.segments_inj.mp (List.append_cancel_left heq)

/-- An artifact whose name is made of names of the other. -/
def nestedNet : Artifact := ⟨"cv", "nets.small", "1"⟩

theorem resolve_layout_smallNet :
    zoo.isRemote = true ∧ smallNet.IsPlain ∧ nestedNet.IsPlain ∧ zoo.LaidOut smallNet ∧
      zoo.resolve smallNet = ⟨.relative, ["cache", "cv", "nets", "small", "1"]⟩ ∧
      zoo.resolve smallNet ≠ zoo.resolve nestedNet ∧
      ((zoo.openFile smallNet "weights").run { bareHost with web := webOf 200 [1, 2] }).2.requests
        = [⟨"https://models.example/zoo/cv/nets/small/1/weights", true, Host.patience⟩] := by
  have hnested : nestedNet.IsPlain := by
    show ∀ s ∈ ["cv", "nets.small", "1"], IsPlain s
    decide
  obtain ⟨-, -, hlaid, hinj⟩ := resolve_layout zoo
  refine ⟨rfl, isPlain_smallNet, hnested, hlaid smallNet isPlain_smallNet,
    (hlaid smallNet isPlain_smallNet).directory, fun heq => ?_, rfl⟩
  have hsame := (hinj smallNet nestedNet isPlain_smallNet hnested).1.mp heq
  exact absurd (congrArg Artifact.id hsame) (by decide)

end Repository

end Perception
