import Perception.Proofs.Model.Failures
import Perception.Proofs.Web.Landing

set_option autoImplicit false

/-! # What a returned path leads to

A retrieval that returns the path of a file without asking for it has found it there. One that asked
for it has put the whole body of the reply there, unless the path leads to a directory by then: it is
still returned, and the body is in that directory (`Repository.openFile_returns`).
-/

namespace Perception.Repository

open Download

variable {r : Repository} {a : Artifact} {n : String} {h : Host} {p : Path}

/-- What a retrieval that returns has done: it found the file, and nothing else happened, or it is a
download, from a repository on the web. -/
theorem openFile_cases (hp : ((r.openFile a n).run h).1 = .ok p) :
    p = r.fileOf a n ∧
      (((r.openFile a n).run h).2 = h ∧ (∃ c, h.tree.read h.here (r.fileOf a n) = .ok c) ∨
        r.isRemote = true ∧
          (r.openFile a n).run h = download (r.urlOf a n) (r.fileOf a n) Host.patience h) := by
  have hopened := r.opened_openFile a n h
  generalize (r.openFile a n).run h = result at hp hopened ⊢
  cases hopened with
  | refused => cases hp
  | found hsearch =>
      cases hp
      exact ⟨rfl, Or.inl ⟨rfl, Host.exists_read_of_run_isFile hsearch⟩⟩
  | downloaded hsearch hremote =>
      exact ⟨(Download.download_surfaces _ _ _ h).returned p hp, Or.inr ⟨hremote, rfl⟩⟩
  | missing => cases hp

/-- **A returned path leads to a file, or to a directory that took the file in.** The path is that of
the file of the artifact. Without a request it leads to a file, and nothing has changed; so it is
for every repository that is a directory. With a request the whole body of the reply is in a file,
which the path leads to unless it leads to a directory once those above it are made. Only then it
leads to no file. Where it has no two dots and leads to no directory before, it always does. -/
theorem openFile_returns (hwf : h.WellFormed) (hp : ((r.openFile a n).run h).1 = .ok p) :
    p = r.fileOf a n ∧
      (((r.openFile a n).run h).2.requests = h.requests →
        ((r.openFile a n).run h).2 = h ∧ ∃ c, h.tree.read h.here p = .ok c) ∧
      (((r.openFile a n).run h).2.requests ≠ h.requests →
        r.isRemote = true ∧ ∃ reply, Lands (r.jobOf a n) h ((r.openFile a n).run h).2 reply) ∧
      ((∃ c, ((r.openFile a n).run h).2.tree.read h.here p = .ok c) ↔
        ((r.openFile a n).run h).2.requests = h.requests ∨ ¬BlockedByDirectory h p) ∧
      (".." ∉ p.names → ¬h.tree.LeadsToDirectory h.here p →
        ∃ c, ((r.openFile a n).run h).2.tree.read h.here p = .ok c) := by
  obtain ⟨rfl, ⟨hsame, hread⟩ | ⟨hremote, hrun⟩⟩ := openFile_cases hp
  · rw [hsame]
    exact ⟨rfl, fun _ => ⟨rfl, hread⟩, fun hasked => absurd rfl hasked,
      iff_of_true hread (Or.inl rfl), fun _ _ => hread⟩
  · rw [hrun] at hp ⊢
    obtain ⟨-, reply, hlands⟩ := download_lands hwf (r.urlOf a n) Host.patience hp
    have hasked : (download (r.urlOf a n) (r.fileOf a n) Host.patience h).2.requests ≠ h.requests := by
      rw [hlands.asked]
      simp
    have hfile (hout : ¬BlockedByDirectory h (r.fileOf a n)) :
        ∃ c, (download (r.urlOf a n) (r.fileOf a n) Host.patience h).2.tree.read h.here
          (r.fileOf a n) = .ok c := ⟨_, hlands.file hout⟩
    refine ⟨rfl, fun hsame => absurd hsame hasked, fun _ => ⟨hremote, reply, hlands⟩, ⟨?_, ?_⟩,
      fun hdots hnot => hfile (not_blocked_of_noDots hwf hdots hnot)⟩
    · rintro ⟨c, hc⟩
      refine Or.inr fun hout => ?_
      -- a path leads to one place only, and there is the directory
      obtain ⟨⟨l, hl, hdir⟩, -⟩ := hlands.taken hout
      obtain ⟨k, hk, hfile⟩ := FileTree.read_eq_ok.mp hc
      cases hl.symm.trans hk
      cases hdir.symm.trans hfile
    · rintro (hsame | hout)
      · exact absurd hsame hasked
      · exact hfile hout

def servedHost : Host := { bareHost with web := webOf 200 [1, 2] }

theorem openFile_returns_served :
    servedHost.WellFormed ∧
      ((zoo.openFile smallNet "weights").run servedHost).1 = .ok (zoo.fileOf smallNet "weights") ∧
      ∃ c, ((zoo.openFile smallNet "weights").run servedHost).2.tree.read servedHost.here
        (zoo.fileOf smallNet "weights") = .ok c := by
  have hwf : servedHost.WellFormed := ⟨FileTree.wellFormed_of_entries rfl, rfl, by decide⟩
  have hp : ((zoo.openFile smallNet "weights").run servedHost).1
      = .ok (zoo.fileOf smallNet "weights") := rfl
  have hnot : ¬servedHost.tree.LeadsToDirectory servedHost.here (zoo.fileOf smallNet "weights") := by
    rintro ⟨l, hl, -⟩
    have hmissing : servedHost.tree.locate servedHost.here (zoo.fileOf smallNet "weights")
        = .error .missing := rfl
    cases hmissing.symm.trans hl
  obtain ⟨-, -, -, -, hfile⟩ := openFile_returns hwf hp
  exact ⟨hwf, hp, hfile (by decide) hnot⟩

/-- The same, but for a directory where the weights of the network would be. -/
def takenHost : Host := { servedHost with
  tree := ⟨(List.range 6).map fun k =>
    (("cache" :: smallNet.segments ++ ["weights"]).take (k + 1), .directory)⟩ }

/-- **The path of a directory is returned**, and the reply is not there. -/
theorem openFile_taken :
    takenHost.WellFormed ∧ zoo.isRemote = true ∧ smallNet.IsPlain ∧ Perception.IsPlain "weights" ∧
      ((zoo.openFile smallNet "weights").run takenHost).1 = .ok (zoo.fileOf smallNet "weights") ∧
      ∀ c, ((zoo.openFile smallNet "weights").run takenHost).2.tree.read takenHost.here
        (zoo.fileOf smallNet "weights") ≠ .ok c := by
  have hdirectory : ((zoo.openFile smallNet "weights").run takenHost).2.tree.read takenHost.here
      (zoo.fileOf smallNet "weights") = .error .isDirectory := rfl
  refine ⟨⟨FileTree.wellFormed_of_entries rfl, rfl, by decide⟩, rfl, isPlain_smallNet, by decide, rfl,
    fun c hc => ?_⟩
  cases hdirectory.symm.trans hc

end Perception.Repository
