import Perception.Proofs.Files.FreshName
import Perception.Proofs.Files.Reading
import Perception.Web.Download

set_option autoImplicit false

/-! # Where a download writes

The directories above the output are made and one of them takes in a temporary directory, in which
the draft of the output is written (`Download.Site`). Nothing is at or below the temporary directory
before, so a tree that differs from the one before only there (`Site.Clean`) is that one again when
the temporary directory is gone (`Site.Clean.removed`).
-/

namespace Perception

/-- The tree is well formed, as file systems keep theirs, and one stands in a directory of it. -/
structure Host.WellFormed (h : Host) : Prop where
  tree : h.tree.WellFormed
  here : h.tree.get? h.here = some .directory
  noDots : ".." ∉ h.here

namespace Download

open FileTree

/-- The place of a download whose parent directories have been made. -/
structure Site (job : Job) (h₀ : Host) where
  made : FileTree
  parent : Location
  makes : (Host.makeDirectories job.output.parent).run h₀ = (.ok (), { h₀ with tree := made })
  located : made.locate h₀.here job.output.parent = .ok parent
  directory : made.get? parent = some .directory
  wellFormed : made.WellFormed
  noDots : ".." ∉ parent

/-- Does the output lead to a directory once its parent directories have been made? -/
def BlockedByDirectory (h : Host) (output : Path) : Prop :=
  ((Host.makeDirectories output.parent).run h).2.tree.LeadsToDirectory h.here output

/-- For a path without two dots nothing changes by that: a place above it is not its own. -/
theorem not_blocked_of_noDots {h : Host} (hwf : h.WellFormed) {output : Path}
    (hdots : ".." ∉ output.names) (hnot : ¬h.tree.LeadsToDirectory h.here output) :
    ¬BlockedByDirectory h output := by
  rintro ⟨l, hl, hdir⟩
  have hgrown := h.grown_run_makeDirectories output.parent
  have hplace : l = start h.here output ++ output.names := eq_append_of_walk hdots hl
  rcases hgrown.added l _ hdir with hbefore | ⟨-, n, hn⟩
  · rw [hplace] at hbefore
    exact hnot ⟨_, walk_of_wellFormed hwf.tree hdots hbefore hl, hbefore⟩
  · have hsub : (output.parent.names.take n) ⊆ output.names :=
      fun x hx => List.dropLast_subset _ (List.mem_of_mem_take hx)
    have habove : l = start h.here output ++ output.parent.names.take n :=
      eq_append_of_walk (fun hmem => hdots (hsub hmem)) hn
    have hnames : output.names = output.parent.names.take n :=
      List.append_cancel_left (hplace.symm.trans habove)
    have hlen := congrArg List.length hnames
    rw [List.length_take, Path.parent, List.length_dropLast] at hlen
    have hnil : output.names = [] := List.length_eq_zero_iff.mp (by omega)
    -- the path without names leads to where it starts from
    refine hnot ⟨start h.here output, ?_, ?_⟩
    · rw [locate_eq, hnil]
      rfl
    · unfold start
      split
      · rfl
      · exact hwf.here

/-- Making the parent directories fails, or there is a place for the download. -/
theorem site_cases (job : Job) {h₀ : Host} (hwf : h₀.WellFormed) :
    (∃ e h, (Host.makeDirectories job.output.parent).run h₀ = (.error e, h)) ∨
      ∃ s : Site job h₀,
        (Host.makeDirectories job.output.parent).run h₀ = (.ok (), { h₀ with tree := s.made }) := by
  have hrun := Host.run_makeDirectories h₀ job.output.parent
  have hmade := made_makeDirectories h₀.tree h₀.here job.output.parent
  by_cases hnul : job.output.parent.hasNul
  · rw [if_pos hnul] at hrun
    exact Or.inl ⟨_, _, hrun⟩
  · rw [if_neg hnul] at hrun
    cases heq : h₀.tree.makeDirectories h₀.here job.output.parent with
    | mk made outcome =>
        rw [heq] at hrun hmade
        cases outcome with
        | error e => exact Or.inl ⟨_, _, hrun⟩
        | ok _ =>
            obtain ⟨parent, hlocated, hdirectory⟩ := hmade.directory rfl
            have hstart : ".." ∉ start h₀.here job.output.parent := by
              unfold start
              split
              · exact List.not_mem_nil
              · exact hwf.noDots
            exact Or.inr ⟨⟨made, parent, hrun, hlocated, hdirectory,
              hmade.grown.wellFormed hwf.tree, noDots_of_walk hstart hlocated⟩, hrun⟩

section Operations

variable {job : Job} {h : Host} {t : FileTree} {temp l : Location} {e : Entry}

/-! ## Drafts -/

/-- The way to a draft goes down to it, and its last name fits. -/
theorem locate_tempPath {here : Location} (hdots : ".." ∉ temp ++ [job.output.name])
    (hl : t.locate here (tempPath temp job) = .ok l) :
    l = temp ++ [job.output.name] ∧ job.output.name.utf8ByteSize ≤ maxNameBytes := by
  have hname : (tempPath temp job).name = job.output.name := by
    rw [Path.name, tempPath, List.getLast?_concat]
    rfl
  have hne : (tempPath temp job).names ≠ [] :=
    List.append_ne_nil_of_right_ne_nil _ (List.cons_ne_nil _ _)
  obtain ⟨-, -, -, hfits⟩ := parent_of_locate hne hl
  rw [hname] at hfits
  have hway : walk t [] (temp ++ [job.output.name]) = .ok l := hl
  have hplace : l = [] ++ (temp ++ [job.output.name]) := eq_append_of_walk hdots hway
  exact ⟨hplace, hfits⟩

/-- A draft that was opened is an empty file. -/
theorem openTemp_ok {h' : Host} (hdots : ".." ∉ temp ++ [job.output.name])
    (hopen : openTemp h temp job = .ok h') :
    job.output.name.utf8ByteSize ≤ maxNameBytes ∧
      h' = { h with tree := h.tree.put (temp ++ [job.output.name]) (.file (.bytes [])) } := by
  unfold openTemp at hopen
  split at hopen
  · cases hopen
  · split at hopen
    · rename_i hwrite
      cases hopen
      obtain ⟨l, hl, -, rfl⟩ := write_ok hwrite
      obtain ⟨rfl, hfits⟩ := locate_tempPath hdots hl
      exact ⟨hfits, rfl⟩
    · cases hopen

theorem append_of_get? {old : Bytes} (b : Bytes) (hl : t.get? l = some (.file (.bytes old))) :
    append t l b = t.put l (.file (.bytes (old ++ b))) := by
  rw [append, hl]

/-- A draft is moved in the place of what is no directory. -/
theorem moveInto_of_get? (hdraft : h.tree.get? (temp ++ [job.output.name]) = some e)
    (hl : h.tree.locate h.here job.output = .ok l) (hnot : h.tree.get? l ≠ some .directory) :
    moveInto h temp job
      = ({ h with tree := (h.tree.put l e).erase (temp ++ [job.output.name]) }, .ok job.output) := by
  have hfile : h.tree.isDirectoryAt l = false := by
    rw [Bool.eq_false_iff]
    exact fun hdir => hnot (isDirectoryAt_iff.mp hdir)
  simp only [moveInto, hdraft, hl, hfile, Bool.false_eq_true, if_false]

end Operations

namespace Site

variable {job : Job} {h₀ h : Host} {t : FileTree} {l : Location}

/-! ## Places -/

def temp (s : Site job h₀) : Location := s.parent ++ [s.made.freshName s.parent job.output.name]

def draft (s : Site job h₀) : Location := s.temp ++ [job.output.name]

def target (s : Site job h₀) : Location := s.parent ++ [job.output.name]

theorem temp_free (s : Site job h₀) : s.made.get? s.temp = none :=
  (freshName_free s.made s.parent job.output.name).2

theorem below_free (s : Site job h₀) (h : s.temp <+: l) : s.made.get? l = none :=
  s.wellFormed.free_below s.temp_free h

theorem temp_ne_nil (s : Site job h₀) : s.temp ≠ [] := ne_nil_of_free s.temp_free

theorem dropLast_temp (s : Site job h₀) : s.temp.dropLast = s.parent := List.dropLast_concat

theorem temp_below_draft (s : Site job h₀) : s.temp <+: s.draft := List.prefix_append _ _

/-- The output is not in the temporary directory. -/
theorem target_not_below (s : Site job h₀) : ¬s.temp <+: s.target := by
  intro h
  have hlen : s.temp.length = s.target.length := by
    rw [temp, target, List.length_append, List.length_append]
    rfl
  -- both are right below the parent, and the temporary name is not that of the output
  have heq : s.temp = s.target := h.eq_of_length hlen
  have hname := List.append_cancel_left heq
  exact (freshName_free s.made s.parent job.output.name).1 (List.cons.inj hname).1

theorem target_ne_nil (s : Site job h₀) : s.target ≠ [] :=
  List.append_ne_nil_of_right_ne_nil _ (List.cons_ne_nil _ _)

theorem draft_ne_nil (s : Site job h₀) : s.draft ≠ [] :=
  List.append_ne_nil_of_right_ne_nil _ (List.cons_ne_nil _ _)

/-- The tree that was made differs from the one before by directories above the output. -/
theorem grown (s : Site job h₀) :
    Grown h₀.tree s.made (Above s.made h₀.here job.output.parent) := by
  have h := Host.grown_run_makeDirectories h₀ job.output.parent
  rw [s.makes] at h
  exact h

theorem blocked_of_made (s : Site job h₀) (h : s.made.LeadsToDirectory h₀.here job.output) :
    BlockedByDirectory h₀ job.output := by
  rw [BlockedByDirectory, s.makes]
  exact h

/-! ## The name of the output -/

/-- Without names the output would be a directory that is there. -/
theorem names_ne_nil (s : Site job h₀) (hout : ¬BlockedByDirectory h₀ job.output) :
    job.output.names ≠ [] := by
  intro hnil
  have hself : job.output.parent = job.output := by
    rw [Path.parent, hnil, List.dropLast_nil, ← hnil]
  refine hout (s.blocked_of_made ⟨s.parent, ?_, s.directory⟩)
  have := s.located
  rwa [hself] at this

/-- Two dots would lead to the directory above. -/
theorem name_ne_dots (s : Site job h₀) (hout : ¬BlockedByDirectory h₀ job.output) :
    job.output.name ≠ ".." := by
  intro hdots
  have hlen : "..".utf8ByteSize ≤ maxNameBytes := by decide
  have hup : s.made.get? s.parent.dropLast = some .directory := s.wellFormed _ _ s.directory
  refine hout (s.blocked_of_made ⟨s.parent.dropLast, ?_, hup⟩)
  have hlocated := s.located
  rw [locate_eq] at hlocated
  rw [locate_eq, names_of_ne_nil (s.names_ne_nil hout), hdots, walk_append]
  show (walk s.made (start h₀.here job.output.parent) job.output.parent.names >>= _) = _
  rw [hlocated]
  show walk s.made s.parent [".."] = _
  rw [walk_cons s.directory hlen]
  rfl

/-- The output's place, in every tree with the directories that were made. -/
theorem locate_target (s : Site job h₀) (hnil : job.output.names ≠ [])
    (hdots : job.output.name ≠ "..") (hlen : job.output.name.utf8ByteSize ≤ maxNameBytes)
    (ht : ∀ l, s.made.get? l = some .directory → t.get? l = some .directory) :
    t.locate h₀.here job.output = .ok s.target :=
  locate_name hnil hdots hlen (locate_mono ht s.located) (ht _ s.directory)

theorem locate_output (s : Site job h₀) (hout : ¬BlockedByDirectory h₀ job.output)
    (hlen : job.output.name.utf8ByteSize ≤ maxNameBytes)
    (ht : ∀ l, s.made.get? l = some .directory → t.get? l = some .directory) :
    t.locate h₀.here job.output = .ok s.target :=
  s.locate_target (s.names_ne_nil hout) (s.name_ne_dots hout) hlen ht

/-- No directory is at the output's place. -/
theorem target_not_directory (s : Site job h₀) (hout : ¬BlockedByDirectory h₀ job.output)
    (hlen : job.output.name.utf8ByteSize ≤ maxNameBytes) :
    s.made.get? s.target ≠ some .directory := by
  intro hdir
  exact hout (s.blocked_of_made ⟨s.target, s.locate_output hout hlen fun _ h => h, hdir⟩)

/-! ## The temporary directory -/

/-- The tree differs from the one that was made at most at and below the temporary directory. -/
def Clean (s : Site job h₀) (t : FileTree) : Prop :=
  ∀ l, ¬s.temp <+: l → t.get? l = s.made.get? l

def staged (s : Site job h₀) : FileTree := s.made.put s.temp .directory

theorem clean_staged (s : Site job h₀) : s.Clean s.staged := by
  intro l hl
  refine get?_put_ne _ ?_ _
  rintro rfl
  exact hl (List.prefix_refl _)

theorem wellFormed_staged (s : Site job h₀) : s.staged.WellFormed := by
  refine s.wellFormed.put_directory s.temp_free ?_
  rw [s.dropLast_temp]
  exact s.directory

theorem temp_staged (s : Site job h₀) : s.staged.get? s.temp = some .directory :=
  get?_put_self _ s.temp_ne_nil _

theorem draft_staged (s : Site job h₀) : s.staged.get? s.draft = none := by
  have hne : s.draft ≠ s.temp := by
    intro h
    have := congrArg List.length h
    rw [draft, List.length_append] at this
    simp at this
  rw [staged, get?_put_ne _ hne]
  exact s.below_free s.temp_below_draft

theorem Clean.put {s : Site job h₀} (ht : s.Clean t) {k : Location} (hk : s.temp <+: k)
    (e : Entry) : s.Clean (t.put k e) := by
  intro l hl
  have hlk : l ≠ k := by
    rintro rfl
    exact hl hk
  rw [get?_put_ne _ hlk]
  exact ht l hl

theorem Clean.directory {s : Site job h₀} (ht : s.Clean t) (l : Location)
    (hl : s.made.get? l = some .directory) : t.get? l = some .directory := by
  have hnot : ¬s.temp <+: l := by
    intro hbelow
    rw [s.below_free hbelow] at hl
    cases hl
  rw [ht l hnot]
  exact hl

/-- **Once the temporary directory is gone nothing differs.** -/
theorem Clean.removed {s : Site job h₀} (ht : s.Clean t) (l : Location) :
    (t.eraseAll s.temp).get? l = s.made.get? l := by
  by_cases hl : s.temp <+: l
  · rw [get?_eraseAll_below _ s.temp_ne_nil hl, s.below_free hl]
  · rw [get?_eraseAll_of_not_below _ hl]
    exact ht l hl

/-! ## The draft -/

theorem noDots_temp (s : Site job h₀) : ".." ∉ s.temp := by
  intro h
  rcases List.mem_append.mp h with h | h
  · exact s.noDots h
  · rw [List.mem_singleton] at h
    exact freshName_ne_dots s.made s.parent job.output.name h.symm

/-- The way to the draft goes down directories. -/
theorem directories_to_draft (s : Site job h₀) {p q : Location} (h : s.draft = p ++ q)
    (hq : q ≠ []) : s.staged.get? p = some .directory := by
  have hup : s.temp = p ++ q.dropLast := by
    have := congrArg List.dropLast h
    rwa [draft, List.dropLast_concat, List.dropLast_append_of_ne_nil hq] at this
  by_cases hnil : q.dropLast = []
  · rw [hnil, List.append_nil] at hup
    rw [← hup]
    exact s.temp_staged
  · have htemp := s.temp_staged
    rw [hup] at htemp
    exact s.wellFormed_staged.directory_of_append hnil htemp

/-- Opening the draft makes an empty file of it, or fails for its name. -/
theorem openTemp_cases (s : Site job h₀) (hout : ¬BlockedByDirectory h₀ job.output)
    (htree : h.tree = s.staged) :
    (job.output.name.utf8ByteSize ≤ maxNameBytes ∧
      openTemp h s.temp job
        = .ok { h with tree := s.staged.put s.draft (.file (.bytes [])) }) ∨
    (∃ e, (e = .nameTooLong ∨ job.output.name = "") ∧ openTemp h s.temp job = .error e) := by
  -- neither the names above nor the name of the output are two dots
  have hdots : ".." ∉ s.draft := by
    intro hmem
    rcases List.mem_append.mp hmem with hmem | hmem
    · exact s.noDots_temp hmem
    · rw [List.mem_singleton] at hmem
      exact s.name_ne_dots hout hmem.symm
  unfold openTemp
  by_cases hempty : job.output.name = ""
  · rw [if_pos hempty]
    exact Or.inr ⟨_, Or.inr hempty, rfl⟩
  · rw [if_neg hempty, htree]
    cases hloc : s.staged.locate h.here (tempPath s.temp job) with
    | error e =>
        -- all directories on the way are there, so only a name can be at fault
        have hlong : e = .nameTooLong :=
          nameTooLong_of_walk hdots (fun p q hpq hq => s.directories_to_draft hpq hq) hloc
        have hwrite : s.staged.write h.here (tempPath s.temp job) (.bytes []) = .error e := by
          rw [write, hloc]
        rw [hwrite]
        exact Or.inr ⟨e, Or.inl hlong, rfl⟩
    | ok l =>
        obtain ⟨hdraft, hlen⟩ := locate_tempPath hdots hloc
        rw [hdraft] at hloc
        have hup : s.staged.get? s.draft.dropLast = some .directory := by
          rw [draft, List.dropLast_concat]
          exact s.temp_staged
        rw [write_free (l := s.draft) _ hloc s.draft_staged hup]
        exact Or.inl ⟨hlen, rfl⟩

/-- **Moving the draft** puts it in the place of what was at the output's. -/
theorem moveInto_draft (s : Site job h₀) (hout : ¬BlockedByDirectory h₀ job.output)
    (hlen : job.output.name.utf8ByteSize ≤ maxNameBytes) (hhere : h.here = h₀.here)
    (hclean : s.Clean h.tree) {e : Entry} (hdraft : h.tree.get? s.draft = some e) :
    moveInto h s.temp job
      = ({ h with tree := (h.tree.put s.target e).erase s.draft }, .ok job.output) := by
  have hloc : h.tree.locate h.here job.output = .ok s.target := by
    rw [hhere]
    exact s.locate_output hout hlen hclean.directory
  -- else the draft would be moved into it
  have hnot : h.tree.get? s.target ≠ some .directory := by
    rw [hclean _ s.target_not_below]
    exact s.target_not_directory hout hlen
  exact moveInto_of_get? hdraft hloc hnot

/-- What is there once the draft was moved to a place and without the temporary directory: the entry
in that place, and all else as it was made. -/
theorem get?_placed (s : Site job h₀) (hclean : s.Clean t) {k : Location} (hk : ¬s.temp <+: k)
    (hnil : k ≠ []) (e : Entry) (l : Location) :
    (((t.put k e).erase s.draft).eraseAll s.temp).get? l
      = if l = k then some e else s.made.get? l := by
  by_cases hl : s.temp <+: l
  · have hne : l ≠ k := by
      rintro rfl
      exact hk hl
    rw [get?_eraseAll_below _ s.temp_ne_nil hl, s.below_free hl, if_neg hne]
  · have hne : l ≠ s.draft := by
      rintro rfl
      exact hl s.temp_below_draft
    rw [get?_eraseAll_of_not_below _ hl, get?_erase_ne _ hne]
    by_cases hlk : l = k
    · rw [hlk, get?_put_self _ hnil, if_pos rfl]
    · rw [get?_put_ne _ hlk, if_neg hlk]
      exact hclean l hl

theorem get?_moved (s : Site job h₀) (hclean : s.Clean t) (e : Entry) (l : Location) :
    (((t.put s.target e).erase s.draft).eraseAll s.temp).get? l
      = if l = s.target then some e else s.made.get? l :=
  s.get?_placed hclean s.target_not_below s.target_ne_nil e l

/-- A file in the place of the output keeps the tree well formed, since nothing lies in a place
that is no directory. -/
theorem wellFormed_moved (s : Site job h₀) (hnot : s.made.get? s.target ≠ some .directory)
    {e : Entry} (ht : ∀ l, t.get? l = if l = s.target then some e else s.made.get? l) :
    t.WellFormed := by
  have hdirectory {l : Location} (hl : s.made.get? l = some .directory) :
      t.get? l = some .directory := by
    have hne : l ≠ s.target := by
      rintro rfl
      exact hnot hl
    rw [ht, if_neg hne]
    exact hl
  intro l e' hl
  by_cases hlt : l = s.target
  · rw [hlt, target, List.dropLast_concat]
    exact hdirectory s.directory
  · rw [ht, if_neg hlt] at hl
    exact hdirectory (s.wellFormed l e' hl)

end Site

end Download

end Perception
