import Perception.Proofs.Web.Download

set_option autoImplicit false

/-! # Where a download lands

Once the draft is complete it is moved to the output's place, and what stands there decides. If that
is no directory the draft takes its place; a directory takes the draft in, under the name of the
output, unless it has such an entry (`Site.landing`). So a download that succeeds has put the whole
body into a file, but the path that it returns leads there only if it leads to no directory:
`Download.download_lands`.

Only success matters here. What holds before each phase (`Download.Bound`) is the invariant of the
phases up to the move, with the name of the output, and what the move did from there on
(`Download.Landed`); of a failure nothing is said.
-/

namespace Perception.Download

open FileTree

variable {job : Job} {h₀ h : Host} {t : FileTree}

/-- The path of the entry that a directory at the output's place takes the body in as. -/
def Job.inside (job : Job) : Path := { job.output with names := job.output.names ++ [job.output.name] }

/-- The last name of the output is one that an entry of a directory can have. -/
structure Named (job : Job) : Prop where
  nonempty : job.output.name ≠ ""
  noDots : job.output.name ≠ ".."

theorem Named.names_ne_nil (h : Named job) : job.output.names ≠ [] := by
  intro hnil
  refine h.nonempty ?_
  rw [Path.name, hnil]
  rfl

namespace Site

/-! ## The move -/

def landing (s : Site job h₀) : Location :=
  if s.made.isDirectoryAt s.target then s.target ++ [job.output.name] else s.target

theorem landing_of_directory (s : Site job h₀) (h : s.made.get? s.target = some .directory) :
    s.landing = s.target ++ [job.output.name] := by
  rw [landing, if_pos (isDirectoryAt_iff.mpr h)]

theorem landing_of_not_directory (s : Site job h₀) (h : s.made.get? s.target ≠ some .directory) :
    s.landing = s.target := by
  rw [landing, if_neg (mt isDirectoryAt_iff.mp h)]

theorem inside_ne_nil (s : Site job h₀) : s.target ++ [job.output.name] ≠ [] :=
  List.append_ne_nil_of_right_ne_nil _ (List.cons_ne_nil _ _)

/-- Below the output's place one is not in the temporary directory either. -/
theorem inside_not_below (s : Site job h₀) : ¬s.temp <+: s.target ++ [job.output.name] := by
  intro h
  have hlen : s.temp.length = s.target.length := by
    rw [temp, target, List.length_append, List.length_append]
    rfl
  exact s.target_not_below (List.prefix_of_prefix_length_le h (List.prefix_append _ _) (Nat.le_of_eq hlen))

theorem landing_ne_nil (s : Site job h₀) : s.landing ≠ [] := by
  unfold landing
  split
  · exact s.inside_ne_nil
  · exact s.target_ne_nil

theorem landing_not_below (s : Site job h₀) : ¬s.temp <+: s.landing := by
  unfold landing
  split
  · exact s.inside_not_below
  · exact s.target_not_below

/-- A draft that was opened has a name for an entry, and is an empty file. -/
theorem named_of_openTemp (s : Site job h₀) (htree : h.tree = s.staged) {h' : Host}
    (hopen : openTemp h s.temp job = .ok h') :
    Named job ∧ job.output.name.utf8ByteSize ≤ maxNameBytes ∧
      h' = { h with tree := s.staged.put s.draft (.file (.bytes [])) } := by
  have hempty : job.output.name ≠ "" := by
    intro hempty
    rw [openTemp, if_pos hempty] at hopen
    cases hopen
  have hdots : job.output.name ≠ ".." := by
    intro hdots
    rw [openTemp, if_neg hempty, htree] at hopen
    split at hopen
    · rename_i hwrite
      obtain ⟨l, hl, hnot, -⟩ := write_ok hwrite
      -- two dots lead from the temporary directory to the one that it is in
      have hway : walk s.staged [] (s.temp ++ [".."]) = .ok l := hdots ▸ hl
      rw [walk_append] at hway
      cases htemp : walk s.staged [] s.temp with
      | error e =>
          rw [htemp] at hway
          cases hway
      | ok k =>
          rw [htemp] at hway
          have hk : k = [] ++ s.temp := eq_append_of_walk s.noDots_temp htemp
          have hup := s.wellFormed_staged _ _ s.temp_staged
          obtain ⟨-, -, hrest⟩ := walk_cons_ok hway
          have hl : s.temp.dropLast = l := by
            rw [hk, List.nil_append] at hrest
            exact Except.ok.inj hrest
          exact hnot (hl ▸ hup)
    · cases hopen
  have hdraft : ".." ∉ s.temp ++ [job.output.name] := by
    intro hmem
    rcases List.mem_append.mp hmem with hmem | hmem
    · exact s.noDots_temp hmem
    · exact hdots (List.mem_singleton.mp hmem).symm
  obtain ⟨hfits, heq⟩ := openTemp_ok hdraft hopen
  rw [htree] at heq
  exact ⟨⟨hempty, hdots⟩, hfits, heq⟩

/-- **A move that succeeds** puts the draft where it lands, which is no directory. -/
theorem moveInto_landing (s : Site job h₀) (hnamed : Named job)
    (hfits : job.output.name.utf8ByteSize ≤ maxNameBytes) (hhere : h.here = h₀.here)
    (hclean : s.Clean h.tree) {e : Entry} (hdraft : h.tree.get? s.draft = some e) {p : Path}
    (hok : (moveInto h s.temp job).2 = .ok p) :
    p = job.output ∧ s.made.get? s.landing ≠ some .directory ∧
      (moveInto h s.temp job).1 = { h with tree := (h.tree.put s.landing e).erase s.draft } := by
  have hloc : h.tree.locate h.here job.output = .ok s.target := by
    rw [hhere]
    exact s.locate_target hnamed.names_ne_nil hnamed.noDots hfits hclean.directory
  have hdraft' : h.tree.get? (s.temp ++ [job.output.name]) = some e := hdraft
  by_cases hdir : s.made.get? s.target = some .directory
  · -- the file goes into the directory, unless there is one of its name
    have htaken : h.tree.isDirectoryAt s.target = true := by
      rw [isDirectoryAt_iff, hclean _ s.target_not_below]
      exact hdir
    have hinside := hclean _ s.inside_not_below
    rw [s.landing_of_directory hdir]
    simp only [moveInto, hdraft', hloc, htaken, if_true] at hok ⊢
    cases hfree : h.tree.get? (s.target ++ [job.output.name]) with
    | some e' =>
        rw [hfree] at hok
        cases hok
    | none =>
        rw [hfree] at hok
        rw [← hinside, hfree]
        exact ⟨(Except.ok.inj hok).symm, (Option.some_ne_none _).symm, rfl⟩
  · have hnot : h.tree.get? s.target ≠ some .directory := by
      rw [hclean _ s.target_not_below]
      exact hdir
    rw [s.landing_of_not_directory hdir, moveInto_of_get? hdraft' hloc hnot] at *
    exact ⟨(Except.ok.inj hok).symm, hdir, rfl⟩

end Site

/-! ## What a successful download has done -/

/-- The body is where it landed, and all else is as it was made; `t` is the tree without the temporary
directory. -/
structure Landed (s : Site job h₀) (h : Host) (t : FileTree) (r : Reply) : Prop where
  requests : h.requests = h₀.requests ++ [⟨job.url, true, job.timeout⟩]
  web : h₀.web job.url = .reply r
  whole : r.breaks = false
  named : Named job
  fits : job.output.name.utf8ByteSize ≤ maxNameBytes
  free : s.made.get? s.landing ≠ some .directory
  tree : ∀ l, t.get? l = if l = s.landing then some (.file (.bytes r.body)) else s.made.get? l

section Landed

variable {s : Site job h₀} {r : Reply}

/-- Directories are still there. -/
theorem Landed.directory (hl : Landed s h t r) (l : Location)
    (hdir : s.made.get? l = some .directory) : t.get? l = some .directory := by
  have hne : l ≠ s.landing := by
    rintro rfl
    exact hl.free hdir
  rw [hl.tree, if_neg hne]
  exact hdir

theorem Landed.locate (hl : Landed s h t r) : t.locate h₀.here job.output = .ok s.target :=
  s.locate_target hl.named.names_ne_nil hl.named.noDots hl.fits hl.directory

/-- The output was led to a directory exactly if there was one at its place. -/
theorem Landed.blocked_iff (hl : Landed s h t r) :
    BlockedByDirectory h₀ job.output ↔ s.made.get? s.target = some .directory := by
  have hlocated : s.made.locate h₀.here job.output = .ok s.target :=
    s.locate_target hl.named.names_ne_nil hl.named.noDots hl.fits fun _ h => h
  rw [BlockedByDirectory, s.makes]
  constructor
  · rintro ⟨l, hloc, hdir⟩
    cases hlocated.symm.trans hloc
    exact hdir
  · exact fun hdir => ⟨s.target, hlocated, hdir⟩

/-- **Without a directory in its place the output is the body.** -/
theorem Landed.read (hl : Landed s h t r) (hout : ¬BlockedByDirectory h₀ job.output) :
    t.read h₀.here job.output = .ok (.bytes r.body) := by
  refine read_eq_ok.mpr ⟨s.target, hl.locate, ?_⟩
  rw [hl.tree, s.landing_of_not_directory (mt hl.blocked_iff.mpr hout), if_pos rfl]

/-- **A directory in its place** is still there, and has the body in it. -/
theorem Landed.read_inside (hl : Landed s h t r) (hout : BlockedByDirectory h₀ job.output) :
    t.LeadsToDirectory h₀.here job.output ∧
      t.read h₀.here job.inside = .ok (.bytes r.body) := by
  have hdir := hl.blocked_iff.mp hout
  have htarget : t.get? s.target = some .directory := hl.directory _ hdir
  refine ⟨⟨s.target, hl.locate, htarget⟩,
    read_eq_ok.mpr ⟨s.target ++ [job.output.name], ?_, ?_⟩⟩
  · have hway : walk t (start h₀.here job.output) job.output.names = .ok s.target := hl.locate
    rw [locate_eq]
    show walk t (start h₀.here job.output) (job.output.names ++ [job.output.name]) = _
    rw [walk_append, hway]
    show walk t s.target [job.output.name] = _
    rw [walk_cons htarget hl.fits, towards, if_neg hl.named.noDots]
    rfl
  · rw [hl.tree, s.landing_of_directory hdir, if_pos rfl]

end Landed

/-! ## Steps -/

def Bound (job : Job) (h₀ h : Host) : Phase → Prop
  | .removeTemp temp result => ∀ p, result = .ok p → p = job.output ∧
      ∃ (s : Site job h₀) (r : Reply), temp = s.temp ∧ Landed s h (h.tree.eraseAll s.temp) r
  | .done result => ∀ p, result = .ok p → p = job.output ∧
      ∃ (s : Site job h₀) (r : Reply), Landed s h h.tree r
  | .write temp bs failing => Named job ∧ Inv job h₀ h (.write temp bs failing)
  | .move temp => Named job ∧ Inv job h₀ h (.move temp)
  | phase => Inv job h₀ h phase

theorem bound_makeParents (hwf : h₀.WellFormed) :
    Bound job h₀ (step job h₀ .makeParents).1 (step job h₀ .makeParents).2 := by
  unfold step
  rcases site_cases job hwf with ⟨e, h, hrun⟩ | ⟨s, hrun⟩
  · rw [hrun]
    exact nofun
  · rw [hrun]
    exact ⟨s, rfl⟩

theorem bound_onReply (s : Site job h₀) {r : Reply} (hweb : h₀.web job.url = .reply r)
    (hbar : h.bar = h₀.bar) (hasked : Asked job h₀ h [false]) (htree : h.tree = s.staged) :
    Bound job h₀ (onReply job h s.temp r).1 (onReply job h s.temp r).2 := by
  rcases onReply_cases job h s.temp r with
    ⟨f, -, heq⟩ | ⟨haccepted, ⟨e, -, heq⟩ | ⟨t, hopen, heq⟩⟩
  · rw [heq]
    exact nofun
  · rw [heq]
    exact nofun
  · obtain ⟨hnamed, hfits, hopened⟩ := s.named_of_openTemp htree hopen
    have hinv := inv_opened s hweb hasked (hbar ▸ haccepted) hfits
    rw [← hbar] at hinv
    rw [heq, hopened]
    exact ⟨hnamed, hinv⟩

theorem bound_request (s : Site job h₀) (hh : h = { h₀ with tree := s.staged }) :
    Bound job h₀ (step job h (.request s.temp)).1 (step job h (.request s.temp)).2 := by
  subst hh
  rw [step_request]
  cases hanswer : h₀.web job.url with
  | failure m => exact nofun
  | reply r =>
      refine bound_onReply s hanswer rfl ⟨rfl, rfl, ?_⟩ rfl
      show h₀.closed ++ _ = _
      rw [hanswer]

theorem bound_move (hnamed : Named job) (s : Site job h₀) {r : Reply}
    (hends : (sending job h₀.bar r).2 = none) (hasked : Asked job h₀ h [true])
    (hw : Writing s h r r.body) :
    Bound job h₀ (step job h (.move s.temp)).1 (step job h (.move s.temp)).2 := by
  intro p hp
  obtain ⟨rfl, hfree, hmoved⟩ :=
    s.moveInto_landing hnamed hw.fits hasked.here hw.clean hw.draft hp
  refine ⟨rfl, s, r, rfl, ?_⟩
  show Landed s (moveInto h s.temp job).1 ((moveInto h s.temp job).1.tree.eraseAll s.temp) r
  rw [hmoved]
  exact ⟨hasked.requests, hw.web, (whole_of_sending hends).1, hnamed, hw.fits, hfree,
    s.get?_placed hw.clean s.landing_not_below s.landing_ne_nil _⟩

/-- **Each step leads towards success or fails.** -/
theorem bound_step (hwf : h₀.WellFormed) (h : Host) (phase : Phase) (hbound : Bound job h₀ h phase) :
    Bound job h₀ (step job h phase).1 (step job h phase).2 := by
  cases phase with
  | makeParents =>
      have hh : h = h₀ := hbound
      rw [hh]
      exact bound_makeParents hwf
  | makeTemp =>
      obtain ⟨s, rfl⟩ := hbound
      have hloc : s.made.locate h₀.here job.output.parent = .ok s.parent := s.located
      simp only [step, hloc]
      exact ⟨s, rfl, rfl⟩
  | request temp =>
      obtain ⟨s, rfl, hh⟩ := hbound
      exact bound_request s hh
  | write temp bs failing =>
      obtain ⟨hnamed, s, r, sent, rfl, hfailing, hrest, hasked, hw⟩ := hbound
      cases bs with
      | cons b bs => exact ⟨hnamed, inv_write_block s hfailing hrest hasked hw⟩
      | nil =>
          cases failing with
          | some f =>
              intro p hp
              cases hp
          | none => exact ⟨hnamed, inv_write_complete s hfailing.symm hrest hasked hw⟩
  | move temp =>
      obtain ⟨hnamed, s, r, rfl, hends, hasked, hw⟩ := hbound
      exact bound_move hnamed s hends hasked hw
  | removeTemp temp result =>
      intro p hp
      obtain ⟨rfl, s, r, rfl, hl⟩ := hbound p hp
      exact ⟨rfl, s, r, hl.requests, hl.web, hl.whole, hl.named, hl.fits, hl.free, hl.tree⟩
  | done result => exact hbound

/-! ## Runs -/

/-- What a download that returns has done: the address was asked for, and the whole body of the reply
is in a file. If the output led to no directory once those above it were made, that file is the
output; else the output still leads to the directory, which has the file in it. -/
structure Lands (job : Job) (h₀ h : Host) (r : Reply) : Prop where
  asked : h.requests = h₀.requests ++ [⟨job.url, true, job.timeout⟩]
  answer : h₀.web job.url = .reply r
  whole : r.breaks = false
  file : ¬BlockedByDirectory h₀ job.output →
    h.tree.read h₀.here job.output = .ok (.bytes r.body)
  taken : BlockedByDirectory h₀ job.output → h.tree.LeadsToDirectory h₀.here job.output ∧
    h.tree.read h₀.here job.inside = .ok (.bytes r.body)

/-- **A download that returns a path** has put the body there, or into a directory that is there. -/
theorem download_lands (hwf : h.WellFormed) (url : String) {output p : Path} (timeout : Datum)
    (hp : (download url output timeout h).1 = .ok p) :
    p = output ∧ ∃ r, Lands ⟨url, output, timeout⟩ h (download url output timeout h).2 r := by
  let job : Job := ⟨url, output, timeout⟩
  have hstart : Bound job h h .makeParents := rfl
  have hend := run_keeps (bound_step hwf) (fun h' temp hrequest => by
    obtain ⟨s, -, rfl⟩ := hrequest
    rfl) (stepsFor h.web url) hstart (stepsLeft_makeParents job h)
  obtain ⟨rfl, s, r, hl⟩ := hend p hp
  exact ⟨rfl, r, hl.requests, hl.web, hl.whole, hl.read, hl.read_inside⟩

end Perception.Download
