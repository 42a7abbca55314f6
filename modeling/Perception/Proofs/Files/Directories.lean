import Perception.Proofs.Files.Walk

set_option autoImplicit false

/-! # Making directories

Making a directory and those above it keeps every entry, and adds only directories, at places that
starts of the path lead to. Where it fails half-way this holds of the tree that is left, and where it
succeeds the path leads to a directory (`FileTree.made_makeDirectories`). Another attempt changes
nothing more (`FileTree.makeDirectories_of_leads`, `FileTree.makeDirectories_again`).
-/

namespace Perception.FileTree

variable {t u v : FileTree} {here l : Location} {p : Path} {e : Entry}

/-! ## Finding -/

theorem find_eq_ok : t.find here p = .ok (l, e) ↔ t.locate here p = .ok l ∧ t.get? l = some e := by
  unfold find
  constructor
  · intro h
    split at h
    · cases h
    · rename_i hl
      split at h
      · rename_i he
        cases h
        exact ⟨hl, he⟩
      · cases h
  · rintro ⟨hl, he⟩
    rw [hl]
    dsimp only
    rw [he]

def LeadsToDirectory (t : FileTree) (here : Location) (p : Path) : Prop :=
  ∃ l, t.locate here p = .ok l ∧ t.get? l = some .directory

theorem leadsToDirectory_of_isDirectory (h : (t.isDirectory here p).toOption = some true) :
    t.LeadsToDirectory here p := by
  unfold isDirectory at h
  split at h
  · rename_i l hf
    exact ⟨l, find_eq_ok.mp hf⟩
  · cases h
  · cases h
  · cases h

/-! ## Trees that grow -/

/-- The second tree has all entries of the first, and otherwise directories at places of some
kind. -/
structure Grown (t u : FileTree) (Place : Location → Prop) : Prop where
  kept : ∀ l e, t.get? l = some e → u.get? l = some e
  added : ∀ l e, u.get? l = some e → t.get? l = some e ∨ (e = .directory ∧ Place l)
  wellFormed : t.WellFormed → u.WellFormed

theorem Grown.refl (t : FileTree) (Place : Location → Prop) : Grown t t Place :=
  ⟨fun _ _ h => h, fun _ _ h => Or.inl h, fun h => h⟩

theorem Grown.trans {P Q R : Location → Prop} (h : Grown t u P) (h' : Grown u v Q)
    (hP : ∀ l, P l → R l) (hQ : ∀ l, Q l → R l) : Grown t v R := by
  refine ⟨fun l e hl => h'.kept l e (h.kept l e hl), fun l e hl => ?_,
    fun hwf => h'.wellFormed (h.wellFormed hwf)⟩
  rcases h'.added l e hl with hl | ⟨he, hq⟩
  · rcases h.added l e hl with hl | ⟨he, hp⟩
    · exact Or.inl hl
    · exact Or.inr ⟨he, hP l hp⟩
  · exact Or.inr ⟨he, hQ l hq⟩

theorem Grown.locate {P : Location → Prop} (h : Grown t u P) (hl : t.locate here p = .ok l) :
    u.locate here p = .ok l :=
  locate_mono (fun l => h.kept l _) hl

/-- A path that leads to no directory leads to what was there before. -/
theorem Grown.get?_eq {P : Location → Prop} (h : Grown t u P) (hnot : ¬u.LeadsToDirectory here p)
    (hl : u.locate here p = .ok l) : u.get? l = t.get? l := by
  cases hu : u.get? l with
  | none =>
      cases ht : t.get? l with
      | none => rfl
      | some e =>
          rw [h.kept l e ht] at hu
          cases hu
  | some e =>
      rcases h.added l e hu with ht | ⟨rfl, -⟩
      · exact ht.symm
      · exact absurd ⟨l, hl, hu⟩ hnot

/-! ## One directory -/

/-- A directory is made at a free place in a directory. -/
theorem makeDirectory_ok (h : t.makeDirectory here p = .ok u) :
    ∃ l, t.locate here p = .ok l ∧ t.get? l = none ∧ t.get? l.dropLast = some .directory ∧
      u = t.put l .directory := by
  unfold makeDirectory at h
  split at h
  · cases h
  · rename_i l hl
    split at h
    · cases h
    · rename_i hfree
      split at h
      · rename_i hup
        cases h
        exact ⟨l, hl, hfree, hup, rfl⟩
      · cases h
      · cases h

theorem grown_put_directory (hl : t.get? l = none) (hup : t.get? l.dropLast = some .directory) :
    Grown t (t.put l .directory) (· = l) := by
  refine ⟨fun k e hk => ?_, fun k e hk => ?_, fun h => h.put_directory hl hup⟩
  · have hkl : k ≠ l := by
      rintro rfl
      rw [hl] at hk
      cases hk
    rw [get?_put_ne _ hkl]
    exact hk
  · by_cases hkl : k = l
    · rw [hkl, get?_put_self _ (ne_nil_of_free hl)] at hk
      cases hk
      exact Or.inr ⟨rfl, hkl⟩
    · rw [get?_put_ne _ hkl] at hk
      exact Or.inl hk

/-- A place that the path, or a start of it, leads to. -/
def Above (t : FileTree) (here : Location) (p : Path) (l : Location) : Prop :=
  ∃ n, t.locate here (p.upTo n) = .ok l

theorem above_self (h : t.locate here p = .ok l) : Above t here p l :=
  ⟨p.names.length, by rw [Path.upTo_length]; exact h⟩

theorem above_of_parent (h : Above t here p.parent l) : Above t here p l := by
  obtain ⟨n, hn⟩ := h
  refine ⟨min n (p.names.length - 1), ?_⟩
  have hpath : p.parent.upTo n = p.upTo (min n (p.names.length - 1)) := by
    rw [Path.upTo, Path.upTo, Path.parent, List.dropLast_eq_take, List.take_take]
  rw [← hpath]
  exact hn

theorem Above.mono (hu : ∀ l, t.get? l = some .directory → u.get? l = some .directory)
    (h : Above t here p l) : Above u here p l := by
  obtain ⟨n, hn⟩ := h
  exact ⟨n, locate_mono hu hn⟩

/-- What making directories up to a path gives: a grown tree, in which the path leads to a directory
if the outcome is good. -/
structure Made (t : FileTree) (here : Location) (p : Path)
    (r : FileTree × Except SystemCause Unit) : Prop where
  grown : Grown t r.1 (Above r.1 here p)
  directory : r.2 = .ok () → r.1.LeadsToDirectory here p

theorem Made.failed (t : FileTree) (here : Location) (p : Path) (e : SystemCause) :
    Made t here p (t, .error e) :=
  ⟨Grown.refl t _, fun h => nomatch h⟩

theorem made_of_makeDirectory (h : t.makeDirectory here p = .ok u) : Made t here p (u, .ok ()) := by
  obtain ⟨l, hl, hfree, hup, rfl⟩ := makeDirectory_ok h
  have hgrown := grown_put_directory hfree hup
  have hlead := hgrown.locate hl
  refine ⟨hgrown.trans (Grown.refl _ (· = l)) ?_ ?_, fun _ => ⟨l, hlead, ?_⟩⟩
  · rintro k rfl
    exact above_self hlead
  · rintro k rfl
    exact above_self hlead
  · exact get?_put_self _ (ne_nil_of_free hfree) _

theorem made_of_isDirectory (h : (t.isDirectory here p).toOption = some true) :
    Made t here p (t, .ok ()) :=
  ⟨Grown.refl t _, fun _ => leadsToDirectory_of_isDirectory h⟩

theorem made_of_ensureDirectory (h : t.ensureDirectory here p = .ok u) :
    Made t here p (u, .ok ()) := by
  unfold ensureDirectory at h
  split at h
  · rename_i hmake
    cases h
    exact made_of_makeDirectory hmake
  · split at h
    · rename_i hdir
      cases h
      exact made_of_isDirectory hdir
    · cases h

/-! ## Directories above -/

/-- Going on with a path once the directories above it have been made. -/
theorem Made.after {r : FileTree × Except SystemCause Unit} (h : Grown t u (Above u here p.parent))
    (h' : Made u here p r) : Made t here p r := by
  refine ⟨h.trans h'.grown (fun l hl => ?_) fun l hl => hl, h'.directory⟩
  exact (above_of_parent hl).mono fun l => h'.grown.kept l _

theorem made_ensureAll (t : FileTree) (here : Location) (fuel : Nat) (p : Path) :
    Made t here p (t.ensureAll here fuel p) := by
  induction fuel generalizing p with
  | zero =>
      unfold ensureAll
      split
      · rename_i hmade
        exact made_of_ensureDirectory hmade
      · exact Made.failed t here p _
  | succ fuel ih =>
      unfold ensureAll
      split
      · rename_i hmake
        exact made_of_makeDirectory hmake
      · split
        · exact Made.failed t here p _
        · have hparent := (ih p.parent).grown
          -- what was made above the path stays, whether or not the path can be made
          split
          · rename_i hrec
            rw [hrec] at hparent
            exact Made.after hparent (Made.failed _ here p _)
          · rename_i hrec
            rw [hrec] at hparent
            split
            · rename_i hmade
              exact Made.after hparent (made_of_ensureDirectory hmade)
            · exact Made.after hparent (Made.failed _ here p _)
      · split
        · rename_i hdir
          exact made_of_isDirectory hdir
        · exact Made.failed t here p _

/-- **Making directories** keeps all entries and adds directories on the way only, also where it
fails; where it succeeds the path leads to a directory. -/
theorem made_makeDirectories (t : FileTree) (here : Location) (p : Path) :
    Made t here p (t.makeDirectories here p) :=
  made_ensureAll t here _ p

/-! ## Directories that are there -/

theorem isDirectory_of_leads (h : t.LeadsToDirectory here p) : t.isDirectory here p = .ok true := by
  obtain ⟨l, hl⟩ := h
  rw [isDirectory, find_eq_ok.mpr hl]

theorem makeDirectory_of_leads (h : t.LeadsToDirectory here p) :
    t.makeDirectory here p = .error .exists := by
  obtain ⟨l, hl, hdir⟩ := h
  rw [makeDirectory, hl]
  dsimp only
  rw [hdir]

theorem ensureAll_of_leads (h : t.LeadsToDirectory here p) (fuel : Nat) :
    t.ensureAll here fuel p = (t, .ok ()) := by
  have hdir : (t.isDirectory here p).toOption = some true := by
    rw [isDirectory_of_leads h]
    rfl
  cases fuel with
  | zero => simp only [ensureAll, ensureDirectory, makeDirectory_of_leads h, if_pos hdir]
  | succ fuel => simp only [ensureAll, makeDirectory_of_leads h, if_pos hdir]

/-- **Making a directory that is there** changes nothing. -/
theorem makeDirectories_of_leads (h : t.LeadsToDirectory here p) :
    t.makeDirectories here p = (t, .ok ()) :=
  ensureAll_of_leads h _

/-! ## Directories that cannot be made -/

/-- A path with names leads nowhere unless its parent leads to a directory. -/
theorem leads_parent_of_locate (hne : p.names ≠ []) (h : t.locate here p = .ok l) :
    t.LeadsToDirectory here p.parent := by
  obtain ⟨k, hk, hdir, -⟩ := parent_of_locate hne h
  exact ⟨k, hk, hdir⟩

/-- A directory that is neither there nor can be made. -/
theorem ensureDirectory_error {e : SystemCause} (h : t.ensureDirectory here p = .error e) :
    t.makeDirectory here p = .error e ∧ (t.isDirectory here p).toOption ≠ some true := by
  unfold ensureDirectory at h
  split at h
  · cases h
  · rename_i hmake
    split at h
    · cases h
    · rename_i hnot
      cases h
      exact ⟨hmake, hnot⟩

/-- Where the directories above cannot be made the directory itself cannot either, and no more is
made. -/
theorem ensureAll_blocked {fuel : Nat} {e : SystemCause} (hne : p.names ≠ [])
    (h : t.ensureAll here fuel p.parent = (t, .error e)) :
    ∃ e', t.ensureAll here (fuel + 1) p = (t, .error e') := by
  have hparent : ¬t.LeadsToDirectory here p.parent := by
    intro hleads
    rw [ensureAll_of_leads hleads] at h
    cases h
  have hnowhere (l : Location) : t.locate here p ≠ .ok l :=
    fun hl => hparent (leads_parent_of_locate hne hl)
  unfold ensureAll
  split
  · rename_i hmake
    obtain ⟨l, hl, -⟩ := makeDirectory_ok hmake
    exact absurd hl (hnowhere l)
  · rw [if_neg hne, h]
    exact ⟨e, rfl⟩
  · split
    · rename_i hdir
      obtain ⟨l, hl, -⟩ := leadsToDirectory_of_isDirectory hdir
      exact absurd hl (hnowhere l)
    · exact ⟨_, rfl⟩

/-- Nor is more made where the directories above are there and the directory itself cannot be
made. -/
theorem ensureAll_last {e : SystemCause} (hne : p.names ≠ [])
    (habove : t.LeadsToDirectory here p.parent) (hlast : t.ensureDirectory here p = .error e)
    (fuel : Nat) : t.ensureAll here fuel p = (t, .error e) := by
  obtain ⟨hmake, hnot⟩ := ensureDirectory_error hlast
  cases fuel with
  | zero => simp only [ensureAll, hlast]
  | succ fuel =>
      unfold ensureAll
      split
      · rename_i hok
        rw [hmake] at hok
        cases hok
      · rw [if_neg hne, ensureAll_of_leads habove]
        dsimp only
        rw [hlast]
      · rename_i hother
        rw [if_neg hnot]
        rw [hmake] at hother
        rw [Except.error.inj hother]

theorem ensureAll_again (fuel : Nat) {e : SystemCause}
    (h : t.ensureAll here fuel p = (u, .error e)) :
    ∃ e', u.ensureAll here fuel p = (u, .error e') := by
  induction fuel generalizing p e with
  | zero =>
      have hsame := h
      unfold ensureAll at h
      split at h
      · cases h
      · cases h
        exact ⟨e, hsame⟩
  | succ fuel ih =>
      have hsame := h
      unfold ensureAll at h
      split at h
      · cases h
      · split at h
        · cases h
          exact ⟨_, hsame⟩
        · rename_i hne
          have hmade := (made_ensureAll t here fuel p.parent).directory
          split at h
          · -- the directories above cannot be made, and cannot be made again
            rename_i hrec
            cases h
            obtain ⟨e', he'⟩ := ih hrec
            exact ensureAll_blocked hne he'
          · rename_i hrec
            rw [hrec] at hmade
            split at h
            · cases h
            · -- those above are there now, and the last one fails as before
              rename_i hlast
              cases h
              exact ⟨e, ensureAll_last hne (hmade rfl) hlast _⟩
      · split at h
        · cases h
        · cases h
          exact ⟨e, hsame⟩

/-- **What cannot be made cannot be made later**: another attempt fails and changes nothing. -/
theorem makeDirectories_again {e : SystemCause} (h : t.makeDirectories here p = (u, .error e)) :
    ∃ e', u.makeDirectories here p = (u, .error e') :=
  ensureAll_again _ h

end Perception.FileTree
