import Perception.Proofs.Settings.InForce

set_option autoImplicit false

/-! # What sessions leave alone

Most of what happens in a session neither looks at the streams of randomness nor changes them
(`Session.IgnoresStreams`), such as asking for a setting and setting up the journal. Seeding puts
the streams where the seed says, wherever they were before (`Session.run_seed`).
-/

namespace Perception.Session

open Outcome

variable {α β : Type} {x : SessionM α} {f : α → SessionM β}

/-! ## Outcomes and the machine -/

theorem run_ofOutcome (o : Outcome α) (s : Session) : (ofOutcome o).run s = (o, s) := by
  cases o <;> rfl

theorem leaves_ofOutcome {τ : Type} (view : Session → τ) (o : Outcome α) :
    Leaves view (ofOutcome o) := by
  intro s
  rw [run_ofOutcome]

theorem leaves_pathOf {τ : Type} (view : Session → τ) (d : Datum) : Leaves view (pathOf d) := by
  cases d <;> exact fun _ => rfl

/-- Only texts are paths. -/
theorem pathOf_ok {d : Datum} {p : Path} {s : Session} (h : ((pathOf d).run s).1 = .ok p) :
    ∃ file, d = .text file ∧ p = .ofString file := by
  cases d with
  | text file =>
      cases h
      exact ⟨file, rfl, rfl⟩
  | _ => cases h

/-- What changes nothing on the machine changes nothing in the session. -/
theorem leaves_onHost {x : HostM α} (hx : Leaves id x) : Leaves id (onHost x) := by
  intro s
  show { s with host := (x.run s.host).2 } = s
  rw [show (x.run s.host).2 = s.host from hx s.host]

/-! ## Streams that are not looked at -/

/-- Computations that neither look at the streams of randomness nor change them. -/
def IgnoresStreams (x : SessionM α) : Prop :=
  ∀ s r, x.run { s with streams := r } = ((x.run s).1, { (x.run s).2 with streams := r })

theorem IgnoresStreams.bind (hx : IgnoresStreams x) (hf : ∀ a, IgnoresStreams (f a)) :
    IgnoresStreams (x >>= f) := by
  intro s r
  have hs := hx s r
  rcases hrun : x.run s with ⟨o, t⟩
  rw [hrun] at hs
  cases o with
  | error e => rw [run_bind_error hs, run_bind_error hrun]
  | ok a =>
      rw [run_bind_ok hs, run_bind_ok hrun]
      exact hf a t r

theorem ignoresStreams_pure (a : α) : IgnoresStreams (pure a : SessionM α) := fun _ _ => rfl

theorem ignoresStreams_ofOutcome (o : Outcome α) : IgnoresStreams (ofOutcome o) := by
  intro s r
  rw [run_ofOutcome, run_ofOutcome]

/-! ## Settings and the journal -/

/-- Asking for the settings in force: the file that is loaded if there are none, and the settings
that are in force then. -/
theorem openSettings_cases (s : Session) :
    (∃ now, ∀ r, (openSettings none).run { s with streams := r }
      = (.ok now, { s with streams := r, settings := some now })) ∨
    ∃ e, ∀ r, (openSettings none).run { s with streams := r }
      = (.error e, { s with streams := r }) := by
  rcases Option.eq_none_or_eq_some s.settings with hs | ⟨now, hs⟩
  · have hs' (r : Random.Streams) : ({ s with streams := r } : Session).settings = none := hs
    cases hc : Settings.contentAt s.host (Settings.fileFor none s) with
    | ok d =>
        refine Or.inl ⟨⟨Settings.fileFor none s, d⟩, fun r => ?_⟩
        refine (Settings.run_openSettings_loaded (Or.inr (hs' r))).trans ?_
        unfold Settings.fileFor at hc ⊢
        rw [hc]
    | error e =>
        refine Or.inr ⟨e, fun r => ?_⟩
        refine (Settings.run_openSettings_loaded (Or.inr (hs' r))).trans ?_
        unfold Settings.fileFor at hc ⊢
        rw [hc]
  · refine Or.inl ⟨now, fun r => ?_⟩
    have hs' : ({ s with streams := r } : Session).settings = some now := hs
    rw [Settings.run_openSettings_inForce hs', ← hs]

theorem ignoresStreams_openSettings : IgnoresStreams (openSettings none) := by
  intro s r
  rcases openSettings_cases s with ⟨now, hnow⟩ | ⟨e, he⟩
  · rw [hnow r, show (openSettings none).run s = _ from hnow s.streams]
  · rw [he r, show (openSettings none).run s = _ from he s.streams]

/-- Asking for the settings in force leaves all else alone. -/
theorem leaves_openSettings {τ : Type} {view : Session → τ}
    (hview : ∀ s now, view { s with settings := some now } = view s) :
    Leaves view (openSettings none) := by
  intro s
  rcases openSettings_cases s with ⟨now, hnow⟩ | ⟨e, he⟩
  · rw [show (openSettings none).run s = _ from hnow s.streams]
    exact hview s now
  · rw [show (openSettings none).run s = _ from he s.streams]

/-- The settings that were handed out are in force. -/
theorem settings_of_openSettings {s t : Session} {now : Settings}
    (h : (openSettings none).run s = (.ok now, t)) : t.settings = some now := by
  rcases openSettings_cases s with ⟨now', hnow⟩ | ⟨e, he⟩
  · rw [show (openSettings none).run s = _ from hnow s.streams] at h
    cases h
    rfl
  · rw [show (openSettings none).run s = _ from he s.streams] at h
    cases h

theorem setting_eq (value : Settings → Outcome Datum) :
    setting value = openSettings none >>= fun now => ofOutcome (value now) := rfl

theorem ignoresStreams_setting (value : Settings → Outcome Datum) :
    IgnoresStreams (setting value) :=
  ignoresStreams_openSettings.bind fun now => ignoresStreams_ofOutcome (value now)

/-- Asking for a setting leaves all but the settings alone. -/
theorem leaves_setting {τ : Type} {view : Session → τ}
    (hview : ∀ s now, view { s with settings := some now } = view s)
    (value : Settings → Outcome Datum) : Leaves view (setting value) :=
  (leaves_openSettings hview).bind fun now => leaves_ofOutcome _ (value now)

theorem leavesHost_setting (value : Settings → Outcome Datum) :
    Leaves Session.host (setting value) :=
  leaves_setting (fun _ _ => rfl) value

theorem leavesRoot_setting (value : Settings → Outcome Datum) :
    Leaves Session.root (setting value) :=
  leaves_setting (fun _ _ => rfl) value

def setUpRoot (level : Datum) : SessionM Unit := fun s =>
  ((s.root.setUp level).2, { s with root := (s.root.setUp level).1 })

theorem setUpRoot_eq (level : Datum) :
    (do
      let s ← get
      let (root, outcome) := s.root.setUp level
      set { s with root := root }
      ofOutcome outcome : SessionM Unit) = setUpRoot level := by
  funext s
  show (ofOutcome (s.root.setUp level).2).run { s with root := (s.root.setUp level).1 } = _
  rw [run_ofOutcome]
  rfl

theorem setUpJournal_null : setUpJournal .null = setting Settings.logLevel >>= setUpRoot := by
  show setting Settings.logLevel >>= (fun level => _) = _
  congr 1
  funext level
  exact setUpRoot_eq level

theorem setUpJournal_of_ne {level : Datum} (h : level ≠ .null) :
    setUpJournal level = setUpRoot level := by
  rw [← setUpRoot_eq]
  cases level with
  | null => exact absurd rfl h
  | _ => rfl

/-! ## Seeding -/

/-- **Seeding** puts the streams where the seed says, wherever they were. -/
theorem run_seed {d : Datum} {i : Int} (hd : Random.Streams.seedOf d = .ok i)
    (harray : Random.Streams.isArraySeed i = true) (s : Session) :
    (seed d).run s = (.ok (), { s with streams := ⟨.ofInt i, .ofLowWord i, .ofLowWord i⟩ }) := by
  have hseed : (ofOutcome (Random.Streams.seedOf d)).run s = (.ok i, s) := by
    rw [run_ofOutcome, hd]
  -- a seed for arrays is one for tensors
  have htensor : Random.Streams.isTensorSeed i = true := by
    simp only [Random.Streams.isArraySeed, Bool.and_eq_true, decide_eq_true_eq] at harray
    simp only [Random.Streams.isTensorSeed, Bool.and_eq_true, decide_eq_true_eq]
    omega
  unfold seed
  rw [run_bind_ok hseed]
  show (ofOutcome (s.streams.seed i).2).run { s with streams := (s.streams.seed i).1 } = _
  rw [run_ofOutcome, Random.Streams.seed, harray, htensor]
  rfl

/-- What is no seed for arrays fails. -/
theorem seed_cases (d : Datum) :
    (∃ i, Random.Streams.seedOf d = .ok i ∧ Random.Streams.isArraySeed i = true) ∨
    ∃ e, ∀ s, ∃ r, (seed d).run s = (.error e, { s with streams := r }) := by
  cases hd : Random.Streams.seedOf d with
  | error e =>
      refine Or.inr ⟨e, fun s => ⟨s.streams, ?_⟩⟩
      have hseed : (ofOutcome (Random.Streams.seedOf d)).run s = (.error e, s) := by
        rw [run_ofOutcome, hd]
      unfold seed
      rw [run_bind_error hseed]
  | ok i =>
      cases harray : Random.Streams.isArraySeed i with
      | true => exact Or.inl ⟨i, rfl, harray⟩
      | false =>
          refine Or.inr ⟨.plain .value, fun s => ⟨(s.streams.seed i).1, ?_⟩⟩
          have hseed : (ofOutcome (Random.Streams.seedOf d)).run s = (.ok i, s) := by
            rw [run_ofOutcome, hd]
          unfold seed
          rw [run_bind_ok hseed]
          show (ofOutcome (s.streams.seed i).2).run { s with streams := (s.streams.seed i).1 } = _
          rw [run_ofOutcome, Random.Streams.seed, harray]
          rfl

end Perception.Session
