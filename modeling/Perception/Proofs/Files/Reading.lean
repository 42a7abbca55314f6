import Perception.Proofs.Files.Directories
import Perception.Proofs.Outcome
import Perception.Web.Host

set_option autoImplicit false

/-! # Files read and written

A path can be read if it leads to a file, and looking for a file finds those that can be read.
Reading changes nothing (`Host.leaves_read`); what was written is read afterwards
(`FileTree.read_of_write`). Making directories only adds to the tree
(`Host.grown_run_makeDirectories`).
-/

namespace Perception

/-- What the system says of a file is a failure to read or write. -/
theorem SystemCause.isIO_kind (c : SystemCause) : c.kind.isIO = true := by
  cases c <;> rfl

namespace FileTree

variable {t u : FileTree} {here : Location} {p : Path}

/-! ## Looking for a file -/

theorem read_eq_ok {c : Content} :
    t.read here p = .ok c ↔ ∃ l, t.locate here p = .ok l ∧ t.get? l = some (.file c) := by
  unfold read
  constructor
  · intro h
    split at h
    · cases h
    · cases h
    · rename_i l c' hf
      cases h
      exact ⟨l, find_eq_ok.mp hf⟩
  · rintro ⟨l, hl⟩
    rw [find_eq_ok.mpr hl]

theorem isFile_of_read {c : Content} (h : t.read here p = .ok c) : t.isFile here p = .ok true := by
  obtain ⟨l, hl⟩ := read_eq_ok.mp h
  rw [isFile, find_eq_ok.mpr hl]

theorem exists_read_of_isFile (h : t.isFile here p = .ok true) : ∃ c, t.read here p = .ok c := by
  unfold isFile at h
  split at h
  · rename_i l c hf
    exact ⟨c, read_eq_ok.mpr ⟨l, find_eq_ok.mp hf⟩⟩
  · cases h
  · cases h
  · cases h

theorem isFile_of_tooLong (h : t.locate here p = .error .nameTooLong) :
    t.isFile here p = .error .nameTooLong := by
  rw [isFile, find, h]

theorem isFile_of_else (hread : ∀ c, t.read here p ≠ .ok c)
    (hloc : t.locate here p ≠ .error .nameTooLong) : t.isFile here p = .ok false := by
  unfold isFile
  split
  · rename_i l c hf
    exact absurd (read_eq_ok.mpr ⟨l, find_eq_ok.mp hf⟩) (hread c)
  · rfl
  · rename_i hf
    unfold find at hf
    split at hf
    · cases hf
      exact absurd ‹_› hloc
    · split at hf <;> cases hf
  · rfl

/-! ## Writing a file -/

/-- A file is written where the path leads to, in place of the one that may be there. -/
theorem write_ok {c : Content} (h : t.write here p c = .ok u) :
    ∃ l, t.locate here p = .ok l ∧ t.get? l ≠ some .directory ∧ u = t.put l (.file c) := by
  unfold write at h
  split at h
  · cases h
  · rename_i l hl
    refine ⟨l, hl, ?_⟩
    split at h
    · cases h
    · rename_i old hold
      cases h
      exact ⟨by rw [hold]; nofun, rfl⟩
    · rename_i hfree
      split at h
      · cases h
        exact ⟨by rw [hfree]; nofun, rfl⟩
      · cases h
      · cases h

/-- **What was written is read afterwards.** -/
theorem read_of_write {c : Content} (h : t.write here p c = .ok u) : u.read here p = .ok c := by
  obtain ⟨l, hl, hnot, rfl⟩ := write_ok h
  have hne : l ≠ [] := by
    rintro rfl
    exact hnot rfl
  -- the file is no directory that the path goes through
  have hdirs : ∀ k, t.get? k = some .directory → (t.put l (.file c)).get? k = some .directory := by
    intro k hk
    have hkl : k ≠ l := by
      rintro rfl
      exact hnot hk
    rw [get?_put_ne _ hkl]
    exact hk
  exact read_eq_ok.mpr ⟨l, locate_mono hdirs hl, get?_put_self _ hne _⟩

end FileTree

namespace Host

theorem run_isFile (h : Host) (p : Path) (hnul : p.hasNul = false) :
    (isFile p).run h = (ofSystem p (h.tree.isFile h.here p)).run h := by
  unfold isFile
  rw [hnul]
  rfl

theorem run_isFile_nul (h : Host) {p : Path} (hnul : p.hasNul = true) :
    (isFile p).run h = (.ok false, h) := by
  unfold isFile
  rw [hnul]
  rfl

/-- A file that is found can be read. -/
theorem exists_read_of_run_isFile {h : Host} {p : Path} (hfound : ((isFile p).run h).1 = .ok true) :
    ∃ c, h.tree.read h.here p = .ok c := by
  cases hnul : p.hasNul with
  | true =>
      rw [run_isFile_nul h hnul] at hfound
      cases hfound
  | false =>
      rw [run_isFile h p hnul] at hfound
      cases hfile : h.tree.isFile h.here p with
      | error e =>
          rw [hfile] at hfound
          cases hfound
      | ok found =>
          rw [hfile] at hfound
          cases hfound
          exact FileTree.exists_read_of_isFile hfile

/-- A path leads to a file with this content, and can be named. -/
theorem run_read_eq_ok {h : Host} {p : Path} {c : Content} :
    ((read p).run h).1 = .ok c ↔ p.hasNul = false ∧ h.tree.read h.here p = .ok c := by
  unfold read checkPath
  cases hnul : p.hasNul with
  | true => exact ⟨nofun, nofun⟩
  | false =>
      show ((ofSystem p (h.tree.read h.here p)).run h).1 = .ok c ↔ _
      cases h.tree.read h.here p with
      | error e => exact ⟨nofun, nofun⟩
      | ok c' =>
          constructor
          · intro hc
            cases hc
            exact ⟨rfl, rfl⟩
          · rintro ⟨-, hc⟩
            cases hc
            rfl

/-- Asking for an address changes no files. -/
theorem run_ask (h : Host) (url : String) (inBlocks : Bool) (timeout : Datum) :
    (ask url inBlocks timeout).run h
      = (.ok (h.web url), { h with
          requests := h.requests ++ [Request.mk url inBlocks timeout]
          closed := h.closed ++ (match h.web url with
            | .reply _ => [false]
            | .failure _ => []) }) := rfl

/-- Looking for a file changes nothing. -/
theorem leaves_isFile (p : Path) : Outcome.Leaves id (isFile p) := by
  intro h
  cases hnul : p.hasNul with
  | true => rw [run_isFile_nul h hnul]
  | false =>
      rw [run_isFile h p hnul]
      cases h.tree.isFile h.here p <;> rfl

/-- Reading changes nothing. -/
theorem leaves_read (p : Path) : Outcome.Leaves id (read p) := by
  intro h
  unfold read checkPath
  cases p.hasNul with
  | true => rfl
  | false =>
      show ((ofSystem p (h.tree.read h.here p)).run h).2 = h
      cases h.tree.read h.here p <;> rfl

/-- Reading a text changes nothing. -/
theorem leaves_readText (p : Path) : Outcome.Leaves id (readText p) := by
  refine (leaves_read p).bind fun c => ?_
  cases (bytesOf c).toString? with
  | none => exact Outcome.leaves_throw _ _
  | some text => exact Outcome.leaves_pure _ _

/-- Writing changes the files, if it succeeds, and nothing else. -/
theorem run_write (h : Host) (p : Path) (c : Content) :
    (∃ u, h.tree.write h.here p c = .ok u ∧ (write p c).run h = (.ok (), { h with tree := u })) ∨
      ∃ e, (write p c).run h = (.error e, h) := by
  unfold write checkPath
  cases p.hasNul with
  | true => exact Or.inr ⟨_, rfl⟩
  | false =>
      cases hw : h.tree.write h.here p c with
      | error e =>
          refine Or.inr ⟨.system e p.toString, ?_⟩
          show ((ofSystem p (h.tree.write h.here p c)) >>= fun tree =>
            (set { h with tree := tree } : HostM Unit)).run h = _
          rw [hw]
          rfl
      | ok u =>
          refine Or.inl ⟨u, rfl, ?_⟩
          show ((ofSystem p (h.tree.write h.here p c)) >>= fun tree =>
            (set { h with tree := tree } : HostM Unit)).run h = _
          rw [hw]
          rfl

/-! ## Making directories -/

theorem run_makeDirectories (h : Host) (p : Path) :
    (makeDirectories p).run h
      = if p.hasNul then (.error (.plain .value), h)
        else match h.tree.makeDirectories h.here p with
          | (tree, .ok ()) => (.ok (), { h with tree := tree })
          | (tree, .error e) => (.error (.system e p.toString), { h with tree := tree }) := by
  unfold makeDirectories checkPath
  by_cases hnul : p.hasNul
  · rw [if_pos hnul]
    simp only [if_pos hnul]
    rfl
  · rw [if_neg hnul]
    simp only [if_neg hnul]
    show (do set { h with tree := (h.tree.makeDirectories h.here p).1 }
             ofSystem p (h.tree.makeDirectories h.here p).2 : HostM Unit).run h = _
    cases h.tree.makeDirectories h.here p with
    | mk tree outcome => cases outcome <;> rfl

/-- Making directories changes the files only. -/
theorem host_run_makeDirectories (h : Host) (p : Path) :
    ((makeDirectories p).run h).2 = { h with tree := ((makeDirectories p).run h).2.tree } := by
  rw [run_makeDirectories]
  split
  · rfl
  · split <;> rfl

/-- Making directories reaches no address, and one stays where one is. -/
theorem frame_run_makeDirectories (h : Host) (p : Path) :
    ((makeDirectories p).run h).2.requests = h.requests ∧
      ((makeDirectories p).run h).2.closed = h.closed ∧
      ((makeDirectories p).run h).2.here = h.here := by
  rw [host_run_makeDirectories]
  exact ⟨rfl, rfl, rfl⟩

/-- What making directories leaves, whether or not it succeeds. -/
theorem grown_run_makeDirectories (h : Host) (p : Path) :
    FileTree.Grown h.tree ((makeDirectories p).run h).2.tree
      (FileTree.Above ((makeDirectories p).run h).2.tree h.here p) := by
  rw [run_makeDirectories]
  split
  · exact FileTree.Grown.refl _ _
  · have hmade := (FileTree.made_makeDirectories h.tree h.here p).grown
    split
    · rename_i heq
      rw [heq] at hmade
      exact hmade
    · rename_i heq
      rw [heq] at hmade
      exact hmade

variable {h : Host} {p : Path}

/-- Where directories have been made the path can be named, and leads to one. -/
theorem leads_run_makeDirectories (hok : ((makeDirectories p).run h).1 = .ok ()) :
    p.hasNul = false ∧ ((makeDirectories p).run h).2.tree.LeadsToDirectory h.here p := by
  have hmade := (FileTree.made_makeDirectories h.tree h.here p).directory
  rw [run_makeDirectories] at hok ⊢
  by_cases hnul : p.hasNul = true
  · rw [if_pos hnul] at hok
    cases hok
  · rw [if_neg hnul] at hok ⊢
    split at hok
    · rename_i heq
      rw [heq] at hmade
      exact ⟨Bool.eq_false_iff.mpr hnul, hmade rfl⟩
    · cases hok

/-- Where the directory is there already nothing is made. -/
theorem run_makeDirectories_of_leads (hnul : p.hasNul = false)
    (hp : h.tree.LeadsToDirectory h.here p) : (makeDirectories p).run h = (.ok (), h) := by
  have hnot : ¬p.hasNul = true := by
    rw [hnul]
    exact Bool.false_ne_true
  rw [run_makeDirectories, if_neg hnot, FileTree.makeDirectories_of_leads hp]

/-- Directories that cannot be made now cannot be made later. -/
theorem run_makeDirectories_again {h' : Host} {e : Failure}
    (hrun : (makeDirectories p).run h = (.error e, h')) :
    ∃ e', (makeDirectories p).run h' = (.error e', h') := by
  rw [run_makeDirectories] at hrun
  by_cases hnul : p.hasNul = true
  · rw [if_pos hnul] at hrun
    cases hrun
    exact ⟨_, by rw [run_makeDirectories, if_pos hnul]⟩
  · rw [if_neg hnul] at hrun
    split at hrun
    · cases hrun
    · rename_i hfail
      cases hrun
      obtain ⟨e', he'⟩ := FileTree.makeDirectories_again hfail
      exact ⟨.system e' p.toString, by rw [run_makeDirectories, if_neg hnul, he']⟩

/-- Only the tree and where one stands have a part in making directories. -/
theorem run_makeDirectories_congr (h h' : Host) (p : Path) (htree : h'.tree = h.tree)
    (hhere : h'.here = h.here) :
    (makeDirectories p).run h'
      = (((makeDirectories p).run h).1, { h' with tree := ((makeDirectories p).run h).2.tree }) := by
  rw [run_makeDirectories, run_makeDirectories, htree, hhere, ← hhere]
  split
  · rw [← htree]
  · cases h.tree.makeDirectories h'.here p with
    | mk tree outcome => cases outcome <;> rfl

/-- The web has no part in making directories. -/
theorem run_makeDirectories_web (h : Host) (p : Path) (w : Web) :
    (makeDirectories p).run { h with web := w }
      = (((makeDirectories p).run h).1, { ((makeDirectories p).run h).2 with web := w }) := by
  rw [run_makeDirectories_congr h { h with web := w } p rfl rfl, host_run_makeDirectories h p]

end Host

end Perception
