import Perception.Proofs.Files.Reading
import Perception.Proofs.Model.Address
import Perception.Proofs.Web.Download

set_option autoImplicit false

/-! # What a retrieval does

A retrieval looks for the file first. It ends there if the file is found or cannot be looked for, and
is a download otherwise, or a failure if the repository is not on the web
(`Repository.opened_openFile`). A download for which directories can be made asks for its address and
settles what it comes to (`Download.settled_of_makes`).
-/

namespace Perception

/-! ## Retrievals -/

namespace Repository

variable {r : Repository} {a : Artifact} {n : String} {h : Host}

/-- What comes of a retrieval: the search for the file fails or finds it, and where it finds none the
file is downloaded, or is missing. -/
inductive Opened (r : Repository) (a : Artifact) (n : String) (h : Host) :
    Outcome Path × Host → Prop
  | refused {e : Failure} (hsearch : ((Host.isFile (r.fileOf a n)).run h).1 = .error e) :
      Opened r a n h (.error e, h)
  | found (hsearch : ((Host.isFile (r.fileOf a n)).run h).1 = .ok true) :
      Opened r a n h (.ok (r.fileOf a n), h)
  | downloaded (hsearch : ((Host.isFile (r.fileOf a n)).run h).1 = .ok false)
      (hremote : r.isRemote = true) :
      Opened r a n h (download (r.urlOf a n) (r.fileOf a n) Host.patience h)
  | missing (hsearch : ((Host.isFile (r.fileOf a n)).run h).1 = .ok false)
      (hlocal : r.isRemote = false) :
      Opened r a n h (.error (.artifactMissing (r.fileOf a n).toString), h)

theorem opened_openFile (r : Repository) (a : Artifact) (n : String) (h : Host) :
    Opened r a n h ((r.openFile a n).run h) := by
  -- looking for the file first changes nothing
  have hleaves := (Host.leaves_isFile (r.fileOf a n)).run_eq h
  cases hsearch : ((Host.isFile (r.fileOf a n)).run h).1 with
  | error e =>
      rw [hsearch] at hleaves
      rw [openFile, Outcome.run_bind_error hleaves]
      exact .refused hsearch
  | ok found =>
      rw [hsearch] at hleaves
      rw [openFile, Outcome.run_bind_ok hleaves]
      cases found with
      | true => exact .found hsearch
      | false =>
          rw [if_neg Bool.false_ne_true]
          cases hremote : r.isRemote with
          | true => exact .downloaded hsearch hremote
          | false => exact .missing hsearch hremote

/-- A file that is found is not asked for. -/
theorem run_openFile_found {c : Content} (hc : ((Host.read (r.fileOf a n)).run h).1 = .ok c) :
    (r.openFile a n).run h = (.ok (r.fileOf a n), h) := by
  obtain ⟨hnul, hread⟩ := Host.run_read_eq_ok.mp hc
  have hfound : (Host.isFile (r.fileOf a n)).run h = (.ok true, h) := by
    rw [Host.run_isFile _ _ hnul, FileTree.isFile_of_read hread]
    rfl
  rw [openFile, Outcome.run_bind_ok hfound, if_pos rfl]
  rfl

/-- A file whose name is too long cannot be looked for. -/
theorem run_openFile_refused (hnul : (r.fileOf a n).hasNul = false)
    (hloc : h.tree.locate h.here (r.fileOf a n) = .error .nameTooLong) :
    (r.openFile a n).run h = (.error (.system .nameTooLong (r.fileOf a n).toString), h) := by
  have hlong : (Host.isFile (r.fileOf a n)).run h
      = (.error (.system .nameTooLong (r.fileOf a n).toString), h) := by
    rw [Host.run_isFile _ _ hnul, FileTree.isFile_of_tooLong hloc]
    rfl
  rw [openFile, Outcome.run_bind_error hlong]

/-- **A file that is not found is downloaded**, if the repository is on the web. -/
theorem run_openFile_missing (hremote : r.isRemote = true)
    (hread : ∀ c, ((Host.read (r.fileOf a n)).run h).1 ≠ .ok c)
    (hloc : (r.fileOf a n).hasNul = false →
      h.tree.locate h.here (r.fileOf a n) ≠ .error .nameTooLong) :
    (r.openFile a n).run h = download (r.urlOf a n) (r.fileOf a n) Host.patience h := by
  have hnot : (Host.isFile (r.fileOf a n)).run h = (.ok false, h) := by
    cases hnul : (r.fileOf a n).hasNul with
    | true => exact Host.run_isFile_nul h hnul
    | false =>
        rw [Host.run_isFile _ _ hnul, FileTree.isFile_of_else
          (fun c hc => hread c (Host.run_read_eq_ok.mpr ⟨hnul, hc⟩)) (hloc hnul)]
        rfl
  rw [openFile, Outcome.run_bind_ok hnot, if_neg Bool.false_ne_true, if_pos hremote]
  rfl

end Repository

/-! ## Downloads whose directories can be made -/

namespace Download

variable {h : Host} {output : Path}

/-- **A download ends**: it settles what it comes to, or its directories cannot be made. -/
theorem download_ends (hwf : h.WellFormed) (url : String) (timeout : Datum)
    (hout : ¬BlockedByDirectory h output) :
    (∃ s : Site ⟨url, output, timeout⟩ h,
      Settled s (download url output timeout h).2 (download url output timeout h).2.tree
        (download url output timeout h).1) ∨
    ∃ e, (download url output timeout h).1 = .error e ∧
      (Host.makeDirectories output.parent).run h
        = (.error e, (download url output timeout h).2) := by
  let job : Job := ⟨url, output, timeout⟩
  have hjob : ¬BlockedByDirectory h job.output := hout
  have hstart : Inv job h h .makeParents := rfl
  exact inv_run hwf hjob (stepsFor h.web url) hstart (stepsLeft_makeParents job h)

/-- A download whose directories can be made settles what it comes to. -/
theorem settled_of_makes (hwf : h.WellFormed) (url : String) (timeout : Datum)
    (hout : ¬BlockedByDirectory h output)
    (hmakes : ((Host.makeDirectories output.parent).run h).1 = .ok ()) :
    ∃ s : Site ⟨url, output, timeout⟩ h,
      Settled s (download url output timeout h).2 (download url output timeout h).2.tree
        (download url output timeout h).1 := by
  rcases download_ends hwf url timeout hout with hsettled | ⟨e, -, hrun⟩
  · exact hsettled
  · rw [hrun] at hmakes
    cases hmakes

end Download

end Perception
