import Perception.Proofs.Web.Download

set_option autoImplicit false

/-! # Steps of a download among others

Other downloads to the same output may make steps between those of one download. What it relies on
is that they leave the directories above the output alone, and its own temporary directory
(`Download.Shared`, `Download.Private`, `Download.Transfer`). In return each step of it changes
nothing but its own temporary directory and, by a move, the output, in whose place it then puts a
whole body (`Download.Guarantee`, `Download.guarantee_step`).
-/

namespace Perception

namespace Download

open FileTree

/-! ## Where downloads meet -/

/-- A download for the sake of its place only. -/
def errand (output : Path) : Job := ⟨"", output, .null⟩

/-- A machine of which only the files matter. -/
def ground (here : Location) (t : FileTree) : Host :=
  { Host.offline t with here := here }

/-- The place of all downloads to an output, once its parent directories have been made. -/
abbrev Meeting (output : Path) (here : Location) (t : FileTree) :=
  Site (errand output) (ground here t)

/-- Making the parent directories fails, or downloads can meet. -/
theorem meeting_cases {output : Path} {here : Location} {t : FileTree}
    (hwf : (ground here t).WellFormed) :
    (∃ e u, (Host.makeDirectories output.parent).run (ground here t) = (.error e, ground here u)) ∨
      ∃ s : Meeting output here t,
        (Host.makeDirectories output.parent).run (ground here t) = (.ok (), ground here s.made) := by
  rcases site_cases (errand output) hwf with ⟨e, h, hrun⟩ | hsite
  · have hhost := Host.host_run_makeDirectories (ground here t) output.parent
    have hh : ((Host.makeDirectories output.parent).run (ground here t)).2 = h :=
      congrArg Prod.snd hrun
    rw [hh] at hhost
    rw [hhost] at hrun
    exact Or.inl ⟨e, h.tree, hrun⟩
  · exact Or.inr hsite

def Phase.afterParents : Outcome Unit → Phase
  | .ok () => .makeTemp
  | .error e => .done (.error e)

def Phase.temp? : Phase → Option Location
  | .request temp => some temp
  | .write temp _ _ => some temp
  | .move temp => some temp
  | .removeTemp temp _ => some temp
  | _ => none

/-- A place in the temporary directory of a phase. -/
def Phase.Owns (phase : Phase) (l : Location) : Prop := ∃ temp, phase.temp? = some temp ∧ temp <+: l

/-- The answer is a reply that is accepted and arrives in full. -/
structure Delivers (job : Job) (bar : ProgressBar) (a : Answer) (r : Reply) : Prop where
  answer : a = .reply r
  accepted : Accepted job bar r
  whole : r.breaks = false

section Files

variable {output : Path} {here : Location} {t₀ t u : FileTree} {temp temp' l : Location}

/-- A temporary directory next to the output, where there was nothing before. -/
structure Private (s : Meeting output here t₀) (t : FileTree) (temp : Location) : Prop where
  beside : ∃ n, temp = s.parent ++ [n] ∧ n ≠ output.name ∧ n ≠ ".."
  free : s.made.get? temp = none
  directory : t.get? temp = some .directory

namespace Private

variable {s : Meeting output here t₀}

theorem ne_nil (hp : Private s t temp) : temp ≠ [] := ne_nil_of_free hp.free

theorem below_free (hp : Private s t temp) (hl : temp <+: l) : s.made.get? l = none :=
  s.wellFormed.free_below hp.free hl

theorem noDots (hp : Private s t temp) : ".." ∉ temp := by
  obtain ⟨n, rfl, -, hn⟩ := hp.beside
  intro hmem
  rcases List.mem_append.mp hmem with hmem | hmem
  · exact s.noDots hmem
  · exact hn (List.mem_singleton.mp hmem).symm

theorem length_eq (hp : Private s t temp) : temp.length = s.parent.length + 1 := by
  obtain ⟨n, rfl, -⟩ := hp.beside
  rw [List.length_append, List.length_singleton]

/-- The output is not in the temporary directory. -/
theorem target_not_below (hp : Private s t temp) : ¬temp <+: s.target := by
  intro hbelow
  have hlen : temp.length = s.target.length := by
    rw [hp.length_eq, Site.target, List.length_append, List.length_singleton]
  obtain ⟨n, rfl, hn, -⟩ := hp.beside
  have hname := List.append_cancel_left (hbelow.eq_of_length hlen)
  exact hn (List.cons.inj hname).1

/-- Temporary directories are not in each other. -/
theorem eq_of_below (hp : Private s t temp) (hp' : Private s u temp') (hl : temp <+: l)
    (hl' : temp' <+: l) : temp = temp' := by
  have hlen : temp.length = temp'.length := hp.length_eq.trans hp'.length_eq.symm
  exact (List.prefix_of_prefix_length_le hl hl' (Nat.le_of_eq hlen)).eq_of_length hlen

/-- What changes below the temporary directory leaves it where it is. -/
theorem put_below (hp : Private s t temp) (n : String) (e : Entry) :
    Private s (t.put (temp ++ [n]) e) temp := by
  have hne : temp ≠ temp ++ [n] := by simp
  refine ⟨hp.beside, hp.free, ?_⟩
  rw [get?_put_ne _ hne]
  exact hp.directory

end Private

/-- What downloads rely on in the files they share. -/
structure Shared (s : Meeting output here t₀) (t : FileTree) : Prop where
  directories : ∀ l, s.made.get? l = some .directory → t.get? l = some .directory
  /-- A free place for a temporary directory was free before. -/
  beside : ∀ n, n ≠ output.name → t.get? (s.parent ++ [n]) = none →
    s.made.get? (s.parent ++ [n]) = none
  target : output.name.utf8ByteSize ≤ maxNameBytes → t.get? s.target ≠ some .directory

/-- How far a transfer has got: the draft holds what was sent of the body, and before the move all of
it. -/
def Transfer (job : Job) (bar : ProgressBar) (a : Answer) (t : FileTree) : Phase → Prop
  | .write temp bs failing => ∃ r sent, a = .reply r ∧ Accepted job bar r ∧
      job.output.name.utf8ByteSize ≤ maxNameBytes ∧ failing = (sending job bar r).2 ∧
      sent ++ bs.flatten = (sending job bar r).1.flatten ∧
      t.get? (temp ++ [job.output.name]) = some (.file (.bytes sent))
  | .move temp => ∃ r, Delivers job bar a r ∧ job.output.name.utf8ByteSize ≤ maxNameBytes ∧
      t.get? (temp ++ [job.output.name]) = some (.file (.bytes r.body))
  | _ => True

/-- A transfer depends on its own draft only. -/
theorem Transfer.congr {job : Job} {bar : ProgressBar} {a : Answer} {phase : Phase}
    (h : ∀ temp, phase.temp? = some temp →
      u.get? (temp ++ [job.output.name]) = t.get? (temp ++ [job.output.name]))
    (ht : Transfer job bar a t phase) : Transfer job bar a u phase := by
  cases phase with
  | write temp bs failing =>
      obtain ⟨r, sent, ha, haccepted, hfits, hfailing, hrest, hdraft⟩ := ht
      exact ⟨r, sent, ha, haccepted, hfits, hfailing, hrest, (h temp rfl).trans hdraft⟩
  | move temp =>
      obtain ⟨r, hr, hfits, hdraft⟩ := ht
      exact ⟨r, hr, hfits, (h temp rfl).trans hdraft⟩
  | _ => trivial

/-- What a step from one tree and phase to the next leaves the other downloads. -/
structure Guarantee (s : Meeting output here t₀) (job : Job) (bar : ProgressBar) (a : Answer)
    (t : FileTree) (phase : Phase) (u : FileTree) (phase' : Phase) : Prop where
  agrees : ∀ l, l ≠ s.target → ¬phase.Owns l → ¬phase'.Owns l → u.get? l = t.get? l
  /-- What is owned no more is as it was before. -/
  left : ∀ l, phase.Owns l → ¬phase'.Owns l → u.get? l = s.made.get? l
  fresh : ∀ temp, phase'.temp? = some temp → phase.temp? = some temp ∨ t.get? temp = none
  temps : ∀ temp, phase'.temp? = some temp → Private s u temp
  transfer : Transfer job bar a u phase'
  target : u.get? s.target = t.get? s.target ∨ ∃ r, Delivers job bar a r ∧
    job.output.name.utf8ByteSize ≤ maxNameBytes ∧ u.get? s.target = some (.file (.bytes r.body))

section

variable {s : Meeting output here t₀} {job : Job} {bar : ProgressBar} {a : Answer}
  {phase phase' : Phase}

theorem owns_congr (h : phase'.temp? = phase.temp?) :
    phase'.Owns l ↔ phase.Owns l := by
  rw [Phase.Owns, Phase.Owns, h]

/-- A step that keeps its temporary directory, or has none. -/
theorem Guarantee.stay (htemp : phase'.temp? = phase.temp?)
    (hagrees : ∀ l, l ≠ s.target → ¬phase.Owns l → u.get? l = t.get? l)
    (htemps : ∀ temp, phase.temp? = some temp → Private s u temp)
    (htransfer : Transfer job bar a u phase')
    (htarget : u.get? s.target = t.get? s.target ∨ ∃ r, Delivers job bar a r ∧
      job.output.name.utf8ByteSize ≤ maxNameBytes ∧ u.get? s.target = some (.file (.bytes r.body))) :
    Guarantee s job bar a t phase u phase' := by
  refine ⟨fun l hl hnot _ => hagrees l hl hnot, fun l hl hnot => ?_, fun temp h => ?_,
    fun temp h => ?_, htransfer, htarget⟩
  · exact absurd ((owns_congr htemp).mpr hl) hnot
  · rw [htemp] at h
    exact Or.inl h
  · rw [htemp] at h
    exact htemps temp h

/-- A step that changes no files. -/
theorem Guarantee.idle (htemp : phase'.temp? = phase.temp?)
    (htemps : ∀ temp, phase.temp? = some temp → Private s t temp)
    (htransfer : Transfer job bar a t phase') : Guarantee s job bar a t phase t phase' :=
  Guarantee.stay htemp (fun _ _ _ => rfl) htemps htransfer (Or.inl rfl)

/-- A step that changes the draft. -/
theorem Guarantee.draft {n : String} {e : Entry} (hphase : phase.temp? = some temp)
    (hphase' : phase'.temp? = some temp) (hp : Private s t temp)
    (htransfer : Transfer job bar a (t.put (temp ++ [n]) e) phase') :
    Guarantee s job bar a t phase (t.put (temp ++ [n]) e) phase' := by
  have hbelow : temp <+: temp ++ [n] := List.prefix_append _ _
  refine Guarantee.stay (hphase'.trans hphase.symm) (fun l _ hnot => ?_) (fun temp' h => ?_)
    htransfer (Or.inl ?_)
  · refine get?_put_ne _ ?_ _
    rintro rfl
    exact hnot ⟨temp, hphase, hbelow⟩
  · rw [hphase] at h
    cases h
    exact hp.put_below n e
  · refine get?_put_ne _ ?_ _
    intro heq
    exact hp.target_not_below (heq ▸ hbelow)

end

end Files

/-! ## Steps -/

section Steps

variable {job : Job} {h : Host} {t₀ : FileTree} {temp : Location}

/-! ### The web and the bar stay -/

/-- No step changes what the web has, nor the bar. -/
theorem outside_step (job : Job) (h : Host) (phase : Phase) :
    (step job h phase).1.web = h.web ∧ (step job h phase).1.bar = h.bar := by
  cases phase with
  | makeParents =>
      have hhost := Host.host_run_makeDirectories h job.output.parent
      have hweb := congrArg Host.web hhost
      have hbar := congrArg Host.bar hhost
      unfold step
      rcases hrun : (Host.makeDirectories job.output.parent).run h with ⟨_ | _, h'⟩
      · rw [hrun] at hweb hbar
        exact ⟨hweb, hbar⟩
      · rw [hrun] at hweb hbar
        exact ⟨hweb, hbar⟩
  | makeTemp =>
      unfold step
      dsimp only
      split <;> exact ⟨rfl, rfl⟩
  | request temp =>
      rw [step_request]
      cases h.web job.url with
      | failure m => exact ⟨rfl, rfl⟩
      | reply r =>
          dsimp only
          -- whether the reply is taken or not, only files and connections change
          rcases onReply_cases job (asking job h) temp r with
            ⟨f, -, heq⟩ | ⟨-, ⟨e, -, heq⟩ | ⟨t, -, heq⟩⟩ <;> rw [heq] <;> exact ⟨rfl, rfl⟩
  | write temp bs failing =>
      cases bs with
      | cons b bs => exact ⟨rfl, rfl⟩
      | nil => cases failing <;> exact ⟨rfl, rfl⟩
  | move temp =>
      unfold step moveInto
      dsimp only
      split
      · split
        · split <;> exact ⟨rfl, rfl⟩
        · exact ⟨rfl, rfl⟩
      · exact ⟨rfl, rfl⟩
      · exact ⟨rfl, rfl⟩
  | removeTemp temp result => exact ⟨rfl, rfl⟩
  | done result => exact ⟨rfl, rfl⟩

/-! ### Results -/

/-- What a download comes to, once that is decided. -/
def Phase.result? : Phase → Option (Outcome Path)
  | .removeTemp _ result => some result
  | .done result => some result
  | _ => none

theorem result_onReply {r : Reply} {p : Path} :
    (onReply job h temp r).2.result? ≠ some (.ok p) := by
  rcases onReply_cases job h temp r with ⟨f, -, heq⟩ | ⟨-, ⟨e, -, heq⟩ | ⟨t, -, heq⟩⟩ <;>
    rw [heq] <;> nofun

/-- Only a move lets a download succeed. -/
theorem result_step {phase : Phase} {p : Path}
    (hresult : (step job h phase).2.result? = some (.ok p)) :
    phase.result? = some (.ok p) ∨ ∃ temp, phase = .move temp := by
  cases phase with
  | makeParents =>
      unfold step at hresult
      dsimp only at hresult
      split at hresult <;> cases hresult
  | makeTemp =>
      unfold step at hresult
      dsimp only at hresult
      split at hresult <;> cases hresult
  | request temp =>
      rw [step_request] at hresult
      cases hweb : h.web job.url with
      | failure m =>
          rw [hweb] at hresult
          cases hresult
      | reply r =>
          rw [hweb] at hresult
          exact absurd hresult result_onReply
  | write temp bs failing =>
      cases bs with
      | cons b bs => cases hresult
      | nil => cases failing <;> cases hresult
  | move temp => exact Or.inr ⟨temp, rfl⟩
  | removeTemp temp result => exact Or.inl hresult
  | done result => exact Or.inl hresult

/-! ### Steps that keep their temporary directory -/

theorem guarantee_makeParents (s : Meeting job.output h.here t₀) (hs : Shared s h.tree) :
    Guarantee s job h.bar (h.web job.url) h.tree .makeParents (step job h .makeParents).1.tree
      (step job h .makeParents).2 := by
  have hnul : job.output.parent.hasNul = false := by
    have hok := congrArg Prod.fst s.makes
    exact (Host.leads_run_makeDirectories hok).1
  have hleads : h.tree.LeadsToDirectory h.here job.output.parent :=
    ⟨s.parent, locate_mono hs.directories s.located, hs.directories _ s.directory⟩
  unfold step
  rw [Host.run_makeDirectories_of_leads hnul hleads]
  exact Guarantee.idle rfl nofun trivial

/-- A request ends the download or opens the draft of a reply. -/
theorem request_cases (hdots : ".." ∉ temp ++ [job.output.name]) :
    (∃ e, (step job h (.request temp)).1.tree = h.tree ∧
      (step job h (.request temp)).2 = .removeTemp temp (.error e)) ∨
    ∃ r, h.web job.url = .reply r ∧ Accepted job h.bar r ∧
      job.output.name.utf8ByteSize ≤ maxNameBytes ∧
      (step job h (.request temp)).1.tree
        = h.tree.put (temp ++ [job.output.name]) (.file (.bytes [])) ∧
      (step job h (.request temp)).2
        = .write temp (sending job h.bar r).1 (sending job h.bar r).2 := by
  rw [step_request]
  cases h.web job.url with
  | failure m => exact Or.inl ⟨_, rfl, rfl⟩
  | reply r =>
      dsimp only
      rcases onReply_cases job (asking job h) temp r with
        ⟨f, -, heq⟩ | ⟨haccepted, ⟨e, -, heq⟩ | ⟨t, hopen, heq⟩⟩
      · rw [heq]
        exact Or.inl ⟨_, rfl, rfl⟩
      · rw [heq]
        exact Or.inl ⟨_, rfl, rfl⟩
      · obtain ⟨hfits, ht⟩ := openTemp_ok hdots hopen
        rw [heq, ht]
        exact Or.inr ⟨r, rfl, haccepted, hfits, rfl, rfl⟩

theorem guarantee_request (s : Meeting job.output h.here t₀) (hname : job.output.name ≠ "..")
    (hp : Private s h.tree temp) :
    Guarantee s job h.bar (h.web job.url) h.tree (.request temp) (step job h (.request temp)).1.tree
      (step job h (.request temp)).2 := by
  have hdots : ".." ∉ temp ++ [job.output.name] := by
    intro hmem
    rcases List.mem_append.mp hmem with hmem | hmem
    · exact hp.noDots hmem
    · exact hname (List.mem_singleton.mp hmem).symm
  rcases request_cases hdots with ⟨e, htree, hphase⟩ | ⟨r, hweb, haccepted, hfits, htree, hphase⟩
  · rw [htree, hphase]
    refine Guarantee.idle rfl (fun temp' h => ?_) trivial
    cases h
    exact hp
  · rw [htree, hphase]
    refine Guarantee.draft rfl rfl hp
      ⟨r, [], hweb, haccepted, hfits, rfl, rfl, ?_⟩
    exact get?_put_self _ (List.append_ne_nil_of_right_ne_nil _ (List.cons_ne_nil _ _)) _

theorem guarantee_write (s : Meeting job.output h.here t₀) {bs : List Bytes}
    {failing : Option Failure} (hp : Private s h.tree temp)
    (ht : Transfer job h.bar (h.web job.url) h.tree (.write temp bs failing)) :
    Guarantee s job h.bar (h.web job.url) h.tree (.write temp bs failing)
      (step job h (.write temp bs failing)).1.tree (step job h (.write temp bs failing)).2 := by
  obtain ⟨r, sent, hweb, haccepted, hfits, hfailing, hrest, hdraft⟩ := ht
  have htemps (temp' : Location) (h' : (Phase.write temp bs failing).temp? = some temp') :
      Private s h.tree temp' := by
    cases h'
    exact hp
  cases bs with
  | cons b bs =>
      show Guarantee s job _ _ h.tree _ (append h.tree (temp ++ [job.output.name]) b) _
      rw [append_of_get? b hdraft]
      refine Guarantee.draft rfl rfl hp ⟨r, sent ++ b, hweb, haccepted, hfits, hfailing, ?_, ?_⟩
      · rw [List.append_assoc, ← List.flatten_cons]
        exact hrest
      · exact get?_put_self _ (List.append_ne_nil_of_right_ne_nil _ (List.cons_ne_nil _ _)) _
  | nil =>
      cases failing with
      | some f => exact Guarantee.idle rfl htemps trivial
      | none =>
          -- the draft holds all that was to be sent
          obtain ⟨hwhole, hbody⟩ := whole_of_sending hfailing.symm
          rw [List.flatten_nil, List.append_nil, hbody] at hrest
          rw [hrest] at hdraft
          exact Guarantee.idle rfl htemps ⟨r, ⟨hweb, haccepted, hwhole⟩, hfits, hdraft⟩

/-- **A move** puts the whole body in the place of the output. -/
theorem step_move (job : Job) (h : Host) (s : Meeting job.output h.here t₀)
    (hout : ¬BlockedByDirectory (ground h.here t₀) job.output) (hs : Shared s h.tree)
    (ht : Transfer job h.bar (h.web job.url) h.tree (.move temp)) :
    ∃ r, Delivers job h.bar (h.web job.url) r ∧ job.output.name.utf8ByteSize ≤ maxNameBytes ∧
      step job h (.move temp)
        = ({ h with
              tree := (h.tree.put s.target (.file (.bytes r.body))).erase
                (temp ++ [job.output.name]) },
          .removeTemp temp (.ok job.output)) := by
  obtain ⟨r, hr, hfits, hdraft⟩ := ht
  have hl : h.tree.locate h.here job.output = .ok s.target :=
    s.locate_output hout hfits hs.directories
  refine ⟨r, hr, hfits, ?_⟩
  unfold step
  dsimp only
  rw [moveInto_of_get? hdraft hl (hs.target hfits)]
  rfl

theorem guarantee_move (s : Meeting job.output h.here t₀)
    (hout : ¬BlockedByDirectory (ground h.here t₀) job.output) (hs : Shared s h.tree)
    (hp : Private s h.tree temp) (ht : Transfer job h.bar (h.web job.url) h.tree (.move temp)) :
    Guarantee s job h.bar (h.web job.url) h.tree (.move temp) (step job h (.move temp)).1.tree
      (step job h (.move temp)).2 := by
  obtain ⟨r, hr, hfits, hstep⟩ := step_move job h s hout hs ht
  have hbelow : temp <+: temp ++ [job.output.name] := List.prefix_append _ _
  have hdraft : temp ++ [job.output.name] ≠ s.target :=
    fun heq => hp.target_not_below (heq ▸ hbelow)
  have htarget : temp ≠ s.target :=
    fun heq => hp.target_not_below (heq ▸ List.prefix_refl _)
  have hself : temp ≠ temp ++ [job.output.name] := by simp
  rw [hstep]
  refine Guarantee.stay rfl (fun l hl hnot => ?_) (fun temp' h' => ?_) trivial
    (Or.inr ⟨r, hr, hfits, ?_⟩)
  · have hne : l ≠ temp ++ [job.output.name] := by
      rintro rfl
      exact hnot ⟨temp, rfl, hbelow⟩
    rw [get?_erase_ne _ hne, get?_put_ne _ hl]
  · cases h'
    refine ⟨hp.beside, hp.free, ?_⟩
    rw [get?_erase_ne _ hself, get?_put_ne _ htarget]
    exact hp.directory
  · rw [get?_erase_ne _ hdraft.symm, get?_put_self _ s.target_ne_nil]

/-! ### Steps that make and remove the temporary directory -/

theorem guarantee_makeTemp (s : Meeting job.output h.here t₀) (hs : Shared s h.tree) :
    Guarantee s job h.bar (h.web job.url) h.tree .makeTemp (step job h .makeTemp).1.tree
      (step job h .makeTemp).2 := by
  have hl : h.tree.locate h.here job.output.parent = .ok s.parent :=
    locate_mono hs.directories s.located
  obtain ⟨hother, hfree⟩ := freshName_free h.tree s.parent job.output.name
  -- the name is fresh, so the new directory is of no one else
  have hnew : Private s
      (h.tree.put (s.parent ++ [h.tree.freshName s.parent job.output.name]) .directory)
      (s.parent ++ [h.tree.freshName s.parent job.output.name]) :=
    ⟨⟨_, rfl, hother, freshName_ne_dots _ _ _⟩, hs.beside _ hother hfree,
      get?_put_self _ (ne_nil_of_free hfree) _⟩
  unfold step
  rw [hl]
  dsimp only
  generalize s.parent ++ [h.tree.freshName s.parent job.output.name] = temp at hfree hnew
  refine ⟨fun l _ _ hnot => ?_, fun l hl _ => ?_, fun temp' h' => ?_, fun temp' h' => ?_, trivial,
    Or.inl ?_⟩
  · refine get?_put_ne _ ?_ _
    rintro rfl
    exact hnot ⟨l, rfl, List.prefix_refl _⟩
  · obtain ⟨_, h', -⟩ := hl
    cases h'
  · cases h'
    exact Or.inr hfree
  · cases h'
    exact hnew
  · refine get?_put_ne _ ?_ _
    intro heq
    exact hnew.target_not_below (heq ▸ List.prefix_refl _)

theorem guarantee_removeTemp (s : Meeting job.output h.here t₀) {result : Outcome Path}
    (hp : Private s h.tree temp) :
    Guarantee s job h.bar (h.web job.url) h.tree (.removeTemp temp result)
      (step job h (.removeTemp temp result)).1.tree (step job h (.removeTemp temp result)).2 := by
  refine ⟨fun l _ hnot _ => ?_, fun l hl _ => ?_, nofun, nofun, trivial, Or.inl ?_⟩
  · exact get?_eraseAll_of_not_below _ fun hbelow => hnot ⟨temp, rfl, hbelow⟩
  · obtain ⟨_, h', hbelow⟩ := hl
    cases h'
    exact (get?_eraseAll_below _ hp.ne_nil hbelow).trans (hp.below_free hbelow).symm
  · exact get?_eraseAll_of_not_below _ hp.target_not_below

/-- **What each step guarantees**, given what it relies on. -/
theorem guarantee_step (job : Job) (h : Host) (s : Meeting job.output h.here t₀)
    (hout : ¬BlockedByDirectory (ground h.here t₀) job.output) (hs : Shared s h.tree)
    {phase : Phase} (hp : ∀ temp, phase.temp? = some temp → Private s h.tree temp)
    (ht : Transfer job h.bar (h.web job.url) h.tree phase) :
    Guarantee s job h.bar (h.web job.url) h.tree phase (step job h phase).1.tree
      (step job h phase).2 := by
  cases phase with
  | makeParents => exact guarantee_makeParents s hs
  | makeTemp => exact guarantee_makeTemp s hs
  | request temp => exact guarantee_request s (s.name_ne_dots hout) (hp temp rfl)
  | write temp bs failing => exact guarantee_write s (hp temp rfl) ht
  | move temp => exact guarantee_move s hout hs (hp temp rfl) ht
  | removeTemp temp result => exact guarantee_removeTemp s (hp temp rfl)
  | done result => exact Guarantee.idle rfl nofun trivial

end Steps

end Download

end Perception
