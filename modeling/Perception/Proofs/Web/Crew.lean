import Perception.Proofs.Web.Meeting
import Perception.Web.Crew

set_option autoImplicit false

/-! # Several downloads never expose a part of a body

Downloads to one output take turns in any order, and any of them may stop anywhere. At every moment
what is in the place of the output was there before or is the whole body of a reply that one of them
got, and one that returns has put its own body there (`Crew.run_intact`).

What holds between two steps (`Crew.Standing`) is that nobody has begun, that the directories above
the output cannot be made, or that they are made and the files differ from those only in the
temporary directories, one of each worker, and the output (`Crew.Crowd`). By what a step guarantees
the others this is kept (`Crew.Crowd.step`, `Crew.Standing.run`).
-/

namespace Perception

namespace Crew

open FileTree Download

variable {ι : Type} {output : Path} {here : Location} {t₀ : FileTree} {c : Crew ι} {i j : ι}
  {l temp : Location}

/-- A worker gets this reply, and all of its body. -/
def Gets (output : Path) (c : Crew ι) (i : ι) (r : Reply) : Prop :=
  Delivers (c.job output i) (c.bar i) (c.answer i) r

/-! ## Turns -/

section Turns

variable [DecidableEq ι]

theorem tree_step (c : Crew ι) (i : ι) : (c.step output here i).tree
    = (Download.step (c.job output i) (c.host here i) (c.phase i)).1.tree := rfl

theorem phase_step_self (c : Crew ι) (i : ι) : (c.step output here i).phase i
    = (Download.step (c.job output i) (c.host here i) (c.phase i)).2 := by
  show (if i = i then _ else c.workers i : Worker).phase = _
  rw [if_pos rfl]
  rfl

theorem phase_step_ne (c : Crew ι) (h : j ≠ i) : (c.step output here i).phase j = c.phase j := by
  show (if j = i then _ else c.workers j : Worker).phase = _
  rw [if_neg h]
  rfl

/-- Nobody is told anything else on the way. -/
theorem job_step (c : Crew ι) (i j : ι) : (c.step output here i).job output j = c.job output j := by
  unfold job step
  dsimp only
  by_cases h : j = i
  · rw [if_pos h, h]
  · rw [if_neg h]

theorem answer_step (c : Crew ι) (i j : ι) : (c.step output here i).answer j = c.answer j := by
  unfold answer step
  dsimp only
  by_cases h : j = i
  · rw [if_pos h, h]
    dsimp only
    rw [(outside_step _ _ _).1]
    rfl
  · rw [if_neg h]

theorem bar_step (c : Crew ι) (i j : ι) : (c.step output here i).bar j = c.bar j := by
  unfold bar step
  dsimp only
  by_cases h : j = i
  · rw [if_pos h, h]
    dsimp only
    rw [(outside_step _ _ _).2]
    rfl
  · rw [if_neg h]

theorem gets_step {r : Reply} : (c.step output here i).Gets output j r ↔ c.Gets output j r := by
  rw [Gets, Gets, job_step, bar_step, answer_step]

theorem run_concat (c : Crew ι) (schedule : List ι) (i : ι) :
    c.run output here (schedule ++ [i]) = (c.run output here schedule).step output here i :=
  List.foldl_append

theorem gets_run {schedule : List ι} {r : Reply} :
    (c.run output here schedule).Gets output j r ↔ c.Gets output j r := by
  induction schedule using List.reverseRecOn with
  | nil => exact Iff.rfl
  | append_singleton schedule i ih => rw [run_concat, gets_step, ih]

end Turns

/-! ## A crowd -/

/-- The parent directories have been made, and the files differ from those at the time only in the
output and the temporary directories of the workers, which are apart. -/
structure Crowd (s : Meeting output here t₀) (c : Crew ι) : Prop where
  elsewhere : ∀ l, l ≠ s.target → (∀ i, ¬(c.phase i).Owns l) → c.tree.get? l = s.made.get? l
  target : c.tree.get? s.target = s.made.get? s.target ∨ ∃ i r, c.Gets output i r ∧
    output.name.utf8ByteSize ≤ maxNameBytes ∧ c.tree.get? s.target = some (.file (.bytes r.body))
  temps : ∀ i temp, (c.phase i).temp? = some temp → Private s c.tree temp
  transfers : ∀ i, Transfer (c.job output i) (c.bar i) (c.answer i) c.tree (c.phase i)
  apart : ∀ i j temp, (c.phase i).temp? = some temp → (c.phase j).temp? = some temp → i = j

namespace Crowd

variable {s : Meeting output here t₀}

/-- Nothing that was made is owned by a worker. -/
theorem free_of_owns (hc : Crowd s c) (hl : (c.phase i).Owns l) : s.made.get? l = none := by
  obtain ⟨temp, htemp, hbelow⟩ := hl
  exact (hc.temps i temp htemp).below_free hbelow

/-- What workers rely on. -/
theorem shared (hc : Crowd s c) (hout : ¬BlockedByDirectory (ground here t₀) output) :
    Shared s c.tree := by
  have htarget (hfits : output.name.utf8ByteSize ≤ maxNameBytes) :
      s.made.get? s.target ≠ some .directory := s.target_not_directory hout hfits
  refine ⟨fun l hl => ?_, fun n hn hfree => ?_, fun hfits => ?_⟩
  · by_cases hlt : l = s.target
    · rcases hc.target with hsame | ⟨i, r, -, hfits, -⟩
      · rw [hlt, hsame, ← hlt]
        exact hl
      · exact absurd (hlt ▸ hl) (htarget hfits)
    · rw [hc.elsewhere l hlt fun i howns => ?_]
      · exact hl
      · rw [hc.free_of_owns howns] at hl
        cases hl
  · have hlt : s.parent ++ [n] ≠ s.target :=
      fun heq => hn (List.cons.inj (List.append_cancel_left heq)).1
    rw [← hc.elsewhere _ hlt fun i howns => ?_]
    · exact hfree
    · -- the temporary directory of a worker is there, so it is not the free place
      obtain ⟨temp, htemp, hbelow⟩ := howns
      have hp := hc.temps i temp htemp
      have hlen : temp.length = (s.parent ++ [n]).length := by
        rw [hp.length_eq, List.length_append, List.length_singleton]
      rw [← hbelow.eq_of_length hlen, hp.directory] at hfree
      cases hfree
  · rcases hc.target with hsame | ⟨i, r, -, -, hbody⟩
    · rw [hsame]
      exact htarget hfits
    · rw [hbody]
      nofun

/-- Where all have at most made the parent directories. -/
theorem start (htree : c.tree = s.made) (htemps : ∀ i, (c.phase i).temp? = none)
    (htransfers : ∀ i, Transfer (c.job output i) (c.bar i) (c.answer i) c.tree (c.phase i)) : Crowd s c := by
  refine ⟨fun l _ _ => ?_, Or.inl ?_, fun i temp h => ?_, htransfers, fun i j temp h => ?_⟩
  · rw [htree]
  · rw [htree]
  · rw [htemps i] at h
    cases h
  · rw [htemps i] at h
    cases h

/-- The place of the output, if it leads anywhere. -/
theorem target_of_locate (hc : Crowd s c) (hout : ¬BlockedByDirectory (ground here t₀) output)
    (hl : c.tree.locate here output = .ok l) :
    l = s.target ∧ output.name.utf8ByteSize ≤ maxNameBytes := by
  obtain ⟨-, -, -, hfits⟩ := parent_of_locate (s.names_ne_nil hout) hl
  have htarget : c.tree.locate here output = .ok s.target :=
    s.locate_output hout hfits (hc.shared hout).directories
  exact ⟨Except.ok.inj (hl.symm.trans htarget), hfits⟩

/-! ### Steps -/

variable [DecidableEq ι]

/-- The step of a worker guarantees the others what it should. -/
def Guarantees (s : Meeting output here t₀) (c : Crew ι) (i : ι) : Prop :=
  Guarantee s (c.job output i) (c.bar i) (c.answer i) c.tree (c.phase i)
    (c.step output here i).tree ((c.step output here i).phase i)

/-- The temporary directory that a step leaves is of no other worker. -/
theorem temp_of_guarantees (hc : Crowd s c) (hg : Guarantees s c i) (hne : j ≠ i)
    (hj : (c.phase j).temp? = some temp) : ((c.step output here i).phase i).temp? ≠ some temp := by
  intro hi
  rcases hg.fresh temp hi with hold | hfree
  · exact hne (hc.apart j i temp hj hold)
  · have hdir := (hc.temps j temp hj).directory
    rw [hfree] at hdir
    cases hdir

/-- What another worker owns a step leaves alone. -/
theorem get?_of_guarantees (hc : Crowd s c) (hg : Guarantees s c i) (hne : j ≠ i)
    (hl : (c.phase j).Owns l) : (c.step output here i).tree.get? l = c.tree.get? l := by
  obtain ⟨temp, htemp, hbelow⟩ := hl
  have hp := hc.temps j temp htemp
  refine hg.agrees l ?_ ?_ ?_
  · rintro rfl
    exact hp.target_not_below hbelow
  · rintro ⟨temp', htemp', hbelow'⟩
    have heq := hp.eq_of_below (hc.temps i temp' htemp') hbelow hbelow'
    rw [← heq] at htemp'
    exact hne (hc.apart j i temp htemp htemp')
  · rintro ⟨temp', htemp', hbelow'⟩
    have heq := hp.eq_of_below (hg.temps temp' htemp') hbelow hbelow'
    rw [← heq] at htemp'
    exact hc.temp_of_guarantees hg hne htemp htemp'

theorem elsewhere_of_guarantees (hc : Crowd s c) (hg : Guarantees s c i) (hl : l ≠ s.target)
    (hfree : ∀ j, ¬((c.step output here i).phase j).Owns l) :
    (c.step output here i).tree.get? l = s.made.get? l := by
  by_cases howns : (c.phase i).Owns l
  · exact hg.left l howns (hfree i)
  · refine (hg.agrees l hl howns (hfree i)).trans (hc.elsewhere l hl fun j => ?_)
    by_cases hji : j = i
    · rw [hji]
      exact howns
    · have hj := hfree j
      rwa [phase_step_ne c hji] at hj

theorem apart_of_guarantees {k : ι} (hc : Crowd s c) (hg : Guarantees s c i)
    (hj : ((c.step output here i).phase j).temp? = some temp)
    (hk : ((c.step output here i).phase k).temp? = some temp) : j = k := by
  by_cases hji : j = i
  · by_cases hki : k = i
    · rw [hji, hki]
    · rw [phase_step_ne c hki] at hk
      rw [hji] at hj
      exact absurd hj (hc.temp_of_guarantees hg hki hk)
  · rw [phase_step_ne c hji] at hj
    by_cases hki : k = i
    · rw [hki] at hk
      exact absurd hk (hc.temp_of_guarantees hg hji hj)
    · rw [phase_step_ne c hki] at hk
      exact hc.apart j k temp hj hk

/-- **A crowd stays one** when a worker makes a step that guarantees what it should. -/
theorem of_guarantees (hc : Crowd s c) (hg : Guarantees s c i) :
    Crowd s (c.step output here i) := by
  refine ⟨fun l hl hfree => hc.elsewhere_of_guarantees hg hl hfree, ?_, fun j temp h => ?_,
    fun j => ?_, fun j k temp hj hk => hc.apart_of_guarantees hg hj hk⟩
  · rcases hg.target with hsame | ⟨r, hr, hfits, hbody⟩
    · rw [hsame]
      exact hc.target.imp_right fun ⟨j, r, hr, hrest⟩ => ⟨j, r, gets_step.mpr hr, hrest⟩
    · exact Or.inr ⟨i, r, gets_step.mpr hr, hfits, hbody⟩
  · by_cases hji : j = i
    · rw [hji] at h
      exact hg.temps temp h
    · rw [phase_step_ne c hji] at h
      have hp := hc.temps j temp h
      refine ⟨hp.beside, hp.free, ?_⟩
      rw [hc.get?_of_guarantees hg hji ⟨temp, h, List.prefix_refl _⟩]
      exact hp.directory
  · rw [job_step, bar_step, answer_step]
    by_cases hji : j = i
    · rw [hji]
      exact hg.transfer
    · rw [phase_step_ne c hji]
      refine Transfer.congr (fun temp h => ?_) (hc.transfers j)
      exact hc.get?_of_guarantees hg hji ⟨temp, h, List.prefix_append _ _⟩

theorem guarantees (hc : Crowd s c) (hout : ¬BlockedByDirectory (ground here t₀) output) (i : ι) :
    Guarantees s c i := by
  rw [Guarantees, tree_step, phase_step_self]
  exact guarantee_step (c.job output i) (c.host here i) s hout (hc.shared hout) (hc.temps i)
    (hc.transfers i)

theorem step (hc : Crowd s c) (hout : ¬BlockedByDirectory (ground here t₀) output) (i : ι) :
    Crowd s (c.step output here i) :=
  hc.of_guarantees (hc.guarantees hout i)

end Crowd

/-! ## Before and without a crowd -/

/-- What holds of workers who began on a tree: nobody has made a step, or the directories above the
output cannot be made, or they are a crowd. -/
inductive Standing (output : Path) (here : Location) (t₀ : FileTree) (c : Crew ι) : Prop
  | idle (tree : c.tree = t₀) (phases : ∀ i, c.phase i = .makeParents)
  | refused (e : Failure)
      (tree : c.tree = ((Host.makeDirectories output.parent).run (ground here t₀)).2.tree)
      (again : (Host.makeDirectories output.parent).run (ground here c.tree)
        = (.error e, ground here c.tree))
      (phases : ∀ i, c.phase i = .makeParents ∨ ∃ e, c.phase i = .done (.error e))
  | crowd (s : Meeting output here t₀) (crowd : Crowd s c)

namespace Standing

/-- Where the output led somewhere it still leads there. -/
theorem reached (hout : ¬BlockedByDirectory (ground here t₀) output)
    (hc : Standing output here t₀ c) (hl : t₀.locate here output = .ok l) :
    c.tree.locate here output = .ok l := by
  cases hc with
  | idle htree _ =>
      rw [htree]
      exact hl
  | refused e htree _ _ =>
      rw [htree]
      exact (Host.grown_run_makeDirectories (ground here t₀) output.parent).locate hl
  | crowd s hc => exact locate_mono (hc.shared hout).directories (s.grown.locate hl)

/-- What is in the place of the output was there before, or is a whole body. -/
theorem whole (hout : ¬BlockedByDirectory (ground here t₀) output)
    (hc : Standing output here t₀ c) (hl : c.tree.locate here output = .ok l) :
    c.tree.get? l = t₀.get? l ∨
      ∃ i r, c.Gets output i r ∧ c.tree.get? l = some (.file (.bytes r.body)) := by
  cases hc with
  | idle htree _ =>
      rw [htree]
      exact Or.inl rfl
  | refused e htree _ _ =>
      rw [htree] at hl ⊢
      exact Or.inl
        ((Host.grown_run_makeDirectories (ground here t₀) output.parent).get?_eq hout hl)
  | crowd s hc =>
      obtain ⟨rfl, hfits⟩ := hc.target_of_locate hout hl
      rcases hc.target with hsame | ⟨i, r, hr, -, hbody⟩
      · rw [hsame]
        exact Or.inl (s.grown.get?_eq (fun h => hout (s.blocked_of_made h))
          (s.locate_output hout hfits fun _ h => h))
      · exact Or.inr ⟨i, r, hr, hbody⟩

end Standing

section Turns

variable [DecidableEq ι]

/-- What a worker does who makes the parent directories. -/
theorem step_makeParents {r : Outcome Unit} {u : FileTree} (hphase : c.phase i = .makeParents)
    (hrun : (Host.makeDirectories output.parent).run (ground here c.tree) = (r, ground here u)) :
    (c.step output here i).tree = u ∧
      (c.step output here i).phase i = Phase.afterParents r := by
  have hown : (Host.makeDirectories (c.job output i).output.parent).run (c.host here i)
      = (r, { c.host here i with tree := u }) := by
    have h := Host.run_makeDirectories_congr (ground here c.tree) (c.host here i) output.parent
      rfl rfl
    rw [hrun] at h
    exact h
  rw [tree_step, phase_step_self, hphase]
  unfold Download.step
  rw [hown]
  cases r with
  | ok _ => exact ⟨rfl, rfl⟩
  | error e => exact ⟨rfl, rfl⟩

theorem phases_step {phase : Phase} (hself : (c.step output here i).phase i = phase) (j : ι) :
    (c.step output here i).phase j = c.phase j ∨ (c.step output here i).phase j = phase := by
  by_cases h : j = i
  · rw [h]
    exact Or.inr hself
  · exact Or.inl (phase_step_ne c h)

namespace Standing

/-- The first step of all. -/
theorem step_idle (hwf : (ground here t₀).WellFormed) (htree : c.tree = t₀)
    (hphases : ∀ i, c.phase i = .makeParents) (i : ι) :
    Standing output here t₀ (c.step output here i) := by
  subst htree
  rcases meeting_cases hwf with ⟨e, u, hrun⟩ | ⟨s, hrun⟩
  · obtain ⟨e', hagain⟩ := Host.run_makeDirectories_again hrun
    obtain ⟨hnext, hself⟩ := step_makeParents (hphases i) hrun
    refine .refused e' ?_ ?_ fun j => ?_
    · rw [hnext, hrun]
      rfl
    · rw [hnext]
      exact hagain
    · rcases phases_step hself j with hj | hj
      · exact Or.inl (hj.trans (hphases j))
      · exact Or.inr ⟨e, hj⟩
  · obtain ⟨hnext, hself⟩ := step_makeParents (hphases i) hrun
    have hphase (j : ι) : (c.step output here i).phase j = .makeParents ∨
        (c.step output here i).phase j = .makeTemp := by
      rcases phases_step hself j with hj | hj
      · exact Or.inl (hj.trans (hphases j))
      · exact Or.inr hj
    refine .crowd s (Crowd.start hnext (fun j => ?_) fun j => ?_)
    · rcases hphase j with hj | hj <;> rw [hj] <;> rfl
    · rcases hphase j with hj | hj <;> rw [hj] <;> trivial

/-- Nobody gets further than the one before. -/
theorem step_refused {e : Failure}
    (htree : c.tree = ((Host.makeDirectories output.parent).run (ground here t₀)).2.tree)
    (hagain : (Host.makeDirectories output.parent).run (ground here c.tree)
      = (.error e, ground here c.tree))
    (hphases : ∀ i, c.phase i = .makeParents ∨ ∃ e, c.phase i = .done (.error e)) (i : ι) :
    Standing output here t₀ (c.step output here i) := by
  have hself : (c.step output here i).tree = c.tree ∧
      ∃ e', (c.step output here i).phase i = .done (.error e') := by
    rcases hphases i with hi | ⟨e', hi⟩
    · obtain ⟨hnext, hself⟩ := step_makeParents hi hagain
      exact ⟨hnext, e, hself⟩
    · rw [tree_step, phase_step_self, hi]
      exact ⟨rfl, e', rfl⟩
  obtain ⟨hnext, e', hself⟩ := hself
  refine .refused e (hnext.trans htree) (hnext.symm ▸ hagain) fun j => ?_
  rcases phases_step hself j with hj | hj
  · rw [hj]
    exact hphases j
  · exact Or.inr ⟨e', hj⟩

theorem step (hwf : (ground here t₀).WellFormed)
    (hout : ¬BlockedByDirectory (ground here t₀) output) (hc : Standing output here t₀ c) (i : ι) :
    Standing output here t₀ (c.step output here i) := by
  cases hc with
  | idle htree hphases => exact step_idle hwf htree hphases i
  | refused e htree hagain hphases => exact step_refused htree hagain hphases i
  | crowd s hc => exact .crowd s (hc.step hout i)

/-- **It holds at every moment**, in whatever order the workers make their steps. -/
theorem run (hwf : (ground here t₀).WellFormed)
    (hout : ¬BlockedByDirectory (ground here t₀) output) (hc : Standing output here t₀ c)
    (schedule : List ι) : Standing output here t₀ (c.run output here schedule) := by
  induction schedule using List.reverseRecOn with
  | nil => exact hc
  | append_singleton schedule i ih =>
      rw [run_concat]
      exact ih.step hwf hout i

end Standing

/-! ## Nothing but whole bodies -/

/-- A worker has put its own body in the place of the output: it made its move after some of the
steps, and the output held the body then. -/
def Placed (output : Path) (here : Location) (c : Crew ι) (schedule : List ι) (i : ι) : Prop :=
  ∃ before after temp r l, schedule = before ++ i :: after ∧
    (c.run output here before).phase i = .move temp ∧ c.Gets output i r ∧
    (c.run output here (before ++ [i])).tree.locate here output = .ok l ∧
    (c.run output here (before ++ [i])).tree.get? l = some (.file (.bytes r.body))

theorem Placed.later {schedule : List ι} (h : c.Placed output here schedule i) (j : ι) :
    c.Placed output here (schedule ++ [j]) i := by
  obtain ⟨before, after, temp, r, l, rfl, hrest⟩ := h
  exact ⟨before, after ++ [j], temp, r, l, by rw [List.append_assoc, List.cons_append], hrest⟩

/-- Nothing but whole bodies is seen in the place of the output. -/
structure Intact (output : Path) (here : Location) (c : Crew ι) (schedule : List ι) : Prop where
  /-- Where the output led somewhere it still leads there. -/
  reached : ∀ l, c.tree.locate here output = .ok l →
    (c.run output here schedule).tree.locate here output = .ok l
  /-- What is there was there before, or is the body of a reply that a worker got. -/
  whole : ∀ l, (c.run output here schedule).tree.locate here output = .ok l →
    (c.run output here schedule).tree.get? l = c.tree.get? l ∨
      ∃ i r, c.Gets output i r ∧
        (c.run output here schedule).tree.get? l = some (.file (.bytes r.body))
  /-- Who returns has put a body there. -/
  placed : ∀ i p, (c.run output here schedule).phase i = .done (.ok p) →
    p = output ∧ c.Placed output here schedule i

namespace Crowd

variable {s : Meeting output here t₀}

/-- **A move of one of a crowd** puts the body it got in the place of the output. -/
theorem step_move (hc : Crowd s c) (hout : ¬BlockedByDirectory (ground here t₀) output)
    (hphase : c.phase i = .move temp) :
    ∃ r, c.Gets output i r ∧ (c.step output here i).tree.locate here output = .ok s.target ∧
      (c.step output here i).tree.get? s.target = some (.file (.bytes r.body)) ∧
      (c.step output here i).phase i = .removeTemp temp (.ok output) := by
  have ht := hc.transfers i
  rw [hphase] at ht
  obtain ⟨r, hr, hfits, hstep⟩ := Download.step_move (c.job output i) (c.host here i) s hout
    (hc.shared hout) ht
  have hshared := (hc.step hout i).shared hout
  refine ⟨r, hr, s.locate_output hout hfits hshared.directories, ?_, ?_⟩
  · have hp := hc.temps i temp (by rw [hphase]; rfl)
    have hdraft : s.target ≠ temp ++ [output.name] :=
      fun heq => hp.target_not_below (heq ▸ List.prefix_append _ _)
    rw [tree_step, hphase, hstep]
    exact (get?_erase_ne _ hdraft).trans (get?_put_self _ s.target_ne_nil _)
  · rw [phase_step_self, hphase, hstep]
    rfl

end Crowd

/-- Who comes to a good result has put a body in the place of the output. -/
theorem placed_run (hwf : (ground here c.tree).WellFormed)
    (hstart : ∀ i, c.phase i = .makeParents)
    (hout : ¬BlockedByDirectory (ground here c.tree) output) {p : Path} (schedule : List ι)
    (hresult : ((c.run output here schedule).phase i).result? = some (.ok p)) :
    p = output ∧ c.Placed output here schedule i := by
  -- the result is there since some step: the last one, or one before it
  induction schedule using List.reverseRecOn with
  | nil =>
      have hnone : (c.phase i).result? = some (.ok p) := hresult
      rw [hstart i] at hnone
      cases hnone
  | append_singleton schedule j ih =>
      rw [run_concat] at hresult
      by_cases hij : i = j
      · subst hij
        rw [phase_step_self] at hresult
        rcases result_step hresult with hbefore | ⟨temp, hmove⟩
        · exact (ih hbefore).imp_right fun h => h.later i
        · -- a move needs a file that was written, so the crew is at work
          cases (Standing.idle rfl hstart).run hwf hout schedule with
          | idle _ hphases =>
              rw [hphases i] at hmove
              cases hmove
          | refused _ _ _ hphases =>
              rcases hphases i with hi | ⟨e, hi⟩ <;> rw [hi] at hmove <;> cases hmove
          | crowd s hc =>
              obtain ⟨r, hr, hl, hbody, hnext⟩ := hc.step_move hout hmove
              rw [← phase_step_self, hnext] at hresult
              cases hresult
              refine ⟨rfl, schedule, [], temp, r, s.target, rfl, hmove, gets_run.mp hr, ?_, ?_⟩
              · rw [run_concat]
                exact hl
              · rw [run_concat]
                exact hbody
      · rw [phase_step_ne _ hij] at hresult
        exact (ih hresult).imp_right fun h => h.later j

/-- **Downloads to one place never expose a part of a body.** If the output leads to no directory,
nor to one made on the way to it where two dots occur, then in whatever order any number of downloads
make their steps, and wherever some of them stop, what is in its place was there before or is the
whole body of a reply that one of them got; each that returns has put its own body there. -/
theorem run_intact (hwf : (ground here c.tree).WellFormed)
    (hstart : ∀ i, c.phase i = .makeParents) (hnot : ¬c.tree.LeadsToDirectory here output)
    (hdots : ".." ∈ output.names → ¬BlockedByDirectory (ground here c.tree) output)
    (schedule : List ι) : c.Intact output here schedule := by
  have hout : ¬BlockedByDirectory (ground here c.tree) output := by
    by_cases hmem : ".." ∈ output.names
    · exact hdots hmem
    · exact not_blocked_of_noDots hwf hmem hnot
  have hstanding := (Standing.idle rfl hstart).run hwf hout schedule
  refine ⟨fun l hl => hstanding.reached hout hl, fun l hl => ?_, fun i p hdone => ?_⟩
  · exact (hstanding.whole hout hl).imp_right fun ⟨i, r, hr, hbody⟩ => ⟨i, r, gets_run.mp hr, hbody⟩
  · refine placed_run hwf hstart hout schedule ?_
    rw [hdone]
    rfl

end Turns

/-- Two downloads over a file: one gets two bytes, and for the other the connection breaks. -/
def pair : Crew Bool where
  tree := ⟨[(["work"], .directory), (["work", "net"], .file (.bytes [7]))]⟩
  workers := fun i =>
    ⟨"https://example.com/net", .int 30,
      { ground ["work"] ⟨[]⟩ with
        web := fun _ =>
          .reply ⟨200, "OK", [], [104, 105], if i then none else some (1, .request "broken")⟩ },
      .makeParents⟩

def net : Path := ⟨.relative, ["net"]⟩

/-- Both in turn, until one has returned and the other has stopped for good. -/
def turns : List Bool :=
  [true, false, true, false, true, false, true, false, true, true, true]

theorem run_intact_pair :
    (ground ["work"] pair.tree).WellFormed ∧ (∀ i, pair.phase i = .makeParents) ∧
      ¬pair.tree.LeadsToDirectory ["work"] net ∧ ".." ∉ net.names ∧
      pair.Intact net ["work"] turns ∧
      (pair.run net ["work"] turns).phase true = .done (.ok net) ∧
      (pair.run net ["work"] turns).tree.read ["work"] net = .ok (.bytes [104, 105]) := by
  have hwf : (ground ["work"] pair.tree).WellFormed :=
    ⟨wellFormed_of_entries (by decide), by rfl, by decide⟩
  have hnot : ¬pair.tree.LeadsToDirectory ["work"] net := by
    rintro ⟨l, hl, hdir⟩
    have hplace : .ok ["work", "net"] = (Except.ok l : Except SystemCause Location) := hl
    cases hplace
    cases hdir
  have hdots : ".." ∉ net.names := by decide
  exact ⟨hwf, fun _ => rfl, hnot, hdots,
    run_intact hwf (fun _ => rfl) hnot (fun hmem => absurd hmem hdots) turns, rfl, rfl⟩

/-- One download to a path that leads to a directory as soon as its parent directories are made. -/
theorem run_crossing :
    (ground ["work"] pair.tree).WellFormed ∧ (∀ i, pair.phase i = .makeParents) ∧
      ¬pair.tree.LeadsToDirectory ["work"] crossing ∧ ¬pair.Intact crossing ["work"] [true] := by
  refine ⟨⟨wellFormed_of_entries (by decide), by rfl, by decide⟩, fun _ => rfl, ?_, fun h => ?_⟩
  · rintro ⟨l, hl, -⟩
    have hmissing : pair.tree.locate ["work"] crossing = .error .missing := rfl
    rw [hmissing] at hl
    cases hl
  · -- what is there now is a directory, and was not there before
    have hl : (pair.run crossing ["work"] [true]).tree.locate ["work"] crossing
        = .ok ["work", "x"] := rfl
    have hdir : (pair.run crossing ["work"] [true]).tree.get? ["work", "x"] = some .directory := rfl
    rcases h.whole _ hl with hbefore | ⟨i, r, -, hbody⟩
    · rw [hdir] at hbefore
      cases hbefore
    · rw [hdir] at hbody
      cases hbody

end Crew

end Perception
