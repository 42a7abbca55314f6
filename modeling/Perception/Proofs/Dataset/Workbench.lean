import Perception.Dataset.Workbench
import Perception.Proofs.Dataset.Pass

set_option autoImplicit false

/-! # Steps of a workbench

An action either asks a pass for a batch or is quiet: it adds feeds and passes at most
(`Workbench.step_cases`). What is kept by every action is kept by every run
(`Workbench.run_induction`). A pass that waits has answered nothing (`Workbench.Tracked`).
-/

namespace Perception.Workbench

variable {w w' : Workbench} {a : Action} {as : List Action} {e : Option Event} {log : List Event}
  {i j x : Nat} {pass : Pass} {f : Feed}

/-! ## Logs -/

theorem answersOf_append (i : Nat) (log log' : List Event) :
    answersOf i (log ++ log') = answersOf i log ++ answersOf i log' := List.filterMap_append

theorem endedIn_append (x : Nat) (log log' : List Event) :
    endedIn x (log ++ log') = endedIn x log ++ endedIn x log' := List.filterMap_append

theorem answersOf_self (e : Event) : answersOf e.pass [e] = [e.answer] := by
  simp [answersOf]

theorem answersOf_ne {e : Event} (h : e.pass ≠ i) : answersOf i [e] = [] := by
  simp [answersOf, h]

theorem endedIn_ended {e : Event} (h : e.answer = none) : endedIn e.feed [e] = [e.pass] := by
  simp [endedIn, h]

theorem endedIn_other {e : Event} (h : e.feed = x → e.answer ≠ none) : endedIn x [e] = [] := by
  simp only [endedIn, List.filterMap_cons, List.filterMap_nil]
  rw [if_neg (fun hand => h hand.1 hand.2)]

/-! ## Steps -/

/-- Every pass is over a feed that there is. -/
def WellFormed (w : Workbench) : Prop := ∀ p ∈ w.passes, p.feed < w.feeds.length

/-- What actions do that are no requests: feeds are added, or passes that wait. -/
structure Quiet (w w' : Workbench) : Prop where
  feeds : ∃ fs, w'.feeds = w.feeds ++ fs
  passes : ∃ ps, w'.passes = w.passes ++ ps ∧
    ∀ p ∈ ps, p.stage = .waiting ∧ p.feed < w.feeds.length

theorem Quiet.of_eq (hf : w'.feeds = w.feeds) (hp : w'.passes = w.passes) : Quiet w w' :=
  ⟨⟨[], by rw [hf, List.append_nil]⟩, [], by rw [hp, List.append_nil],
    fun _ h => absurd h List.not_mem_nil⟩

/-- A pass that is asked: it is not over, and there is its feed. -/
structure Askable (w : Workbench) (i : Nat) (pass : Pass) (f : Feed) : Prop where
  place : w.passes[i]? = some pass
  source : w.feeds[pass.feed]? = some f
  notOver : pass.stage ≠ .finished

/-- **What an action can do**: it asks a pass, or is quiet. -/
theorem step_cases (w : Workbench) (a : Action) :
    (Quiet w (w.step a).1 ∧ (w.step a).2 = none) ∨
      ∃ i pass f, a = .request i ∧ w.Askable i pass f ∧
        w.step a = ((w.ask i pass f).1, some (w.ask i pass f).2) := by
  cases a with
  | seed d =>
      refine Or.inl ?_
      unfold step
      dsimp only
      split <;> exact ⟨.of_eq rfl rfl, rfl⟩
  | palette m t => exact Or.inl ⟨.of_eq rfl rfl, rfl⟩
  | other s => exact Or.inl ⟨.of_eq rfl rfl, rfl⟩
  | openFeed d p o =>
      refine Or.inl ?_
      unfold step
      dsimp only
      split
      · refine ⟨⟨⟨[_], rfl⟩, [], (List.append_nil _).symm, fun p hp => ?_⟩, rfl⟩
        exact absurd hp List.not_mem_nil
      · exact ⟨.of_eq rfl rfl, rfl⟩
  | beginPass x =>
      refine Or.inl ?_
      unfold step
      dsimp only
      split
      · rename_i hx
        refine ⟨⟨⟨[], (List.append_nil _).symm⟩, [⟨x, .waiting⟩], rfl, fun p hp => ?_⟩, rfl⟩
        rw [List.mem_singleton.mp hp]
        exact ⟨rfl, hx⟩
      · exact ⟨.of_eq rfl rfl, rfl⟩
  -- a pass that is asked has to be there, and its feed, and must not be over
  | request i =>
      unfold step
      dsimp only
      split
      · exact Or.inl ⟨.of_eq rfl rfl, rfl⟩
      · rename_i pass hpass
        split
        · exact Or.inl ⟨.of_eq rfl rfl, rfl⟩
        · rename_i f hf
          split
          · exact Or.inl ⟨.of_eq rfl rfl, rfl⟩
          · exact Or.inr ⟨i, pass, f, rfl, ⟨hpass, hf, ‹_›⟩, rfl⟩

theorem Action.eq_request {a : Action} (h : a.asks i = true) : a = .request i := by
  cases a with
  | request j => exact congrArg Action.request (of_decide_eq_true h)
  | _ => cases h

/-- A request to a pass that can be asked asks it. -/
theorem Askable.step_eq (h : w.Askable i pass f) :
    w.step (.request i) = ((w.ask i pass f).1, some (w.ask i pass f).2) := by
  simp only [step, h.place, h.source, if_neg h.notOver]

/-- A request to a pass that is over is in vain. -/
theorem step_request_finished (hp : w.passes[i]? = some ⟨x, .finished⟩) :
    w.step (.request i) = (w, none) := by
  simp only [step, hp]
  split
  · rfl
  · rw [if_pos trivial]

theorem step_beginPass (hx : x < w.feeds.length) :
    w.step (.beginPass x) = ({ w with passes := w.passes ++ [⟨x, .waiting⟩] }, none) :=
  if_pos hx

theorem run_cons_log (w : Workbench) (a : Action) (as : List Action) :
    (w.run (a :: as)).2 = (w.step a).2.toList ++ ((w.step a).1.run as).2 := rfl

/-! ## What a request changes -/

variable {answer : Option (List Nat)} {stage : PassStage} {d : Draws}

theorem ask_event (hr : f.plan.request pass.stage ⟨f.own, w.streams.tensors⟩ = (answer, stage, d)) :
    (w.ask i pass f).2 = ⟨pass.feed, i, answer.map f.data.batch⟩ := by
  simp only [ask, hr]

theorem ask_pass_ne (hne : j ≠ i) : (w.ask i pass f).1.passes[j]? = w.passes[j]? :=
  List.getElem?_set_ne (Ne.symm hne)

theorem ask_feed_ne (hne : x ≠ pass.feed) : (w.ask i pass f).1.feeds[x]? = w.feeds[x]? :=
  List.getElem?_set_ne (Ne.symm hne)

theorem Askable.pass_self (h : w.Askable i pass f)
    (hr : f.plan.request pass.stage ⟨f.own, w.streams.tensors⟩ = (answer, stage, d)) :
    (w.ask i pass f).1.passes[i]? = some ⟨pass.feed, stage⟩ := by
  have hi : i < w.passes.length := (List.getElem?_eq_some_iff.mp h.place).1
  simp only [ask, hr, List.getElem?_set_self hi]

theorem Askable.feed_self (h : w.Askable i pass f)
    (hr : f.plan.request pass.stage ⟨f.own, w.streams.tensors⟩ = (answer, stage, d)) :
    (w.ask i pass f).1.feeds[pass.feed]? = some ⟨f.data, f.plan, d.own⟩ := by
  have hx : pass.feed < w.feeds.length := (List.getElem?_eq_some_iff.mp h.source).1
  simp only [ask, hr, List.getElem?_set_self hx]

/-! ## What stays -/

theorem Quiet.pass_at (h : Quiet w w') (hp : w.passes[i]? = some pass) :
    w'.passes[i]? = some pass := by
  obtain ⟨ps, hps, -⟩ := h.passes
  rw [hps, List.getElem?_append_left (List.getElem?_eq_some_iff.mp hp).1]
  exact hp

theorem Quiet.feed_at (h : Quiet w w') (hf : w.feeds[x]? = some f) : w'.feeds[x]? = some f := by
  obtain ⟨fs, hfs⟩ := h.feeds
  rw [hfs, List.getElem?_append_left (List.getElem?_eq_some_iff.mp hf).1]
  exact hf

/-- A pass stays where it is until it is asked, and answers nothing. -/
theorem step_pass_of_not_asks (hnot : a.asks i = false) (hp : w.passes[i]? = some pass) :
    (w.step a).1.passes[i]? = some pass ∧ answersOf i (w.step a).2.toList = [] := by
  rcases step_cases w a with ⟨hq, hnone⟩ | ⟨j, other, f, rfl, -, hstep⟩
  · rw [hnone]
    exact ⟨hq.pass_at hp, rfl⟩
  · have hne : j ≠ i := of_decide_eq_false hnot
    rw [hstep]
    exact ⟨(ask_pass_ne (Ne.symm hne)).trans hp, answersOf_ne hne⟩

/-- Of a feed only its generator changes, to what a request leaves of it. -/
theorem step_feed (hf : w.feeds[x]? = some f) (a : Action) :
    ∃ own, (w.step a).1.feeds[x]? = some ⟨f.data, f.plan, own⟩ ∧
      (own = f.own ∨
        ∃ stage, own = (f.plan.request stage ⟨f.own, w.streams.tensors⟩).2.2.own) := by
  rcases step_cases w a with ⟨hq, -⟩ | ⟨i, p, f', rfl, ha, hstep⟩
  · exact ⟨f.own, hq.feed_at hf, Or.inl rfl⟩
  · rw [hstep]
    by_cases hx : x = p.feed
    · subst hx
      obtain rfl : f' = f := Option.some.inj (ha.source.symm.trans hf)
      exact ⟨_, ha.feed_self rfl, Or.inr ⟨p.stage, rfl⟩⟩
    · exact ⟨f.own, (ask_feed_ne hx).trans hf, Or.inl rfl⟩

def Reads (w : Workbench) (x : Nat) (d : ArrayDataset) (l : BatchPlan) : Prop :=
  ∃ own, w.feeds[x]? = some ⟨d, l, own⟩

theorem Reads.lt {d : ArrayDataset} {l : BatchPlan} (h : w.Reads x d l) : x < w.feeds.length := by
  obtain ⟨own, hf⟩ := h
  exact (List.getElem?_eq_some_iff.mp hf).1

/-- **A feed reads the same dataset by the same plan** ever after. -/
theorem Reads.step {d : ArrayDataset} {l : BatchPlan} (h : w.Reads x d l) (a : Action) :
    (w.step a).1.Reads x d l := by
  obtain ⟨own, hf⟩ := h
  obtain ⟨own', hf', -⟩ := step_feed hf a
  exact ⟨own', hf'⟩

theorem Reads.run {d : ArrayDataset} {l : BatchPlan} (h : w.Reads x d l) (as : List Action) :
    (w.run as).1.Reads x d l := by
  induction as generalizing w with
  | nil => exact h
  | cons a as ih => exact ih (h.step a)

/-! ## Runs -/

/-- Something holds of each action of a run, in the workbench in which it is made. -/
def Throughout (P : Workbench → Action → Prop) : Workbench → List Action → Prop
  | _, [] => True
  | w, a :: as => P w a ∧ Throughout P (w.step a).1 as

instance decidableThroughout {P : Workbench → Action → Prop} [∀ w a, Decidable (P w a)] :
    ∀ (w : Workbench) (as : List Action), Decidable (Throughout P w as)
  | _, [] => isTrue trivial
  | w, a :: as =>
      have := decidableThroughout (P := P) (w.step a).1 as
      inferInstanceAs (Decidable (P w a ∧ Throughout P (w.step a).1 as))

/-- **What each action keeps, a run keeps.** -/
theorem run_induction {P : Workbench → Action → Prop} {Inv : Workbench → List Event → Prop}
    (hstep : ∀ w log a, P w a → Inv w log → Inv (w.step a).1 (log ++ (w.step a).2.toList))
    (hP : Throughout P w as) (h : Inv w log) : Inv (w.run as).1 (log ++ (w.run as).2) := by
  induction as generalizing w log with
  | nil =>
      show Inv w (log ++ [])
      rw [List.append_nil]
      exact h
  | cons a as ih =>
      have hrest := ih hP.2 (hstep w log a hP.1 h)
      rw [List.append_assoc] at hrest
      exact hrest

/-- Passes are over feeds that there are, and have answered nothing as long as they wait. -/
structure Tracked (w : Workbench) (log : List Event) : Prop where
  wellFormed : w.WellFormed
  silent : ∀ i, (∀ p, w.passes[i]? = some p → p.stage = .waiting) → answersOf i log = []

theorem tracked_nil (h : w.WellFormed) : Tracked w [] := ⟨h, fun _ _ => rfl⟩

theorem Quiet.tracked (hq : Quiet w w') (h : Tracked w log) : Tracked w' log := by
  obtain ⟨fs, hfs⟩ := hq.feeds
  obtain ⟨ps, hps, hnew⟩ := hq.passes
  refine ⟨fun p hp => ?_, fun i hi => h.silent i fun p hp => hi p ?_⟩
  · rw [hfs, List.length_append]
    rw [hps] at hp
    rcases List.mem_append.mp hp with hp | hp
    · have := h.wellFormed p hp
      omega
    · have := (hnew p hp).2
      omega
  · rw [hps, List.getElem?_append_left (List.getElem?_eq_some_iff.mp hp).1]
    exact hp

theorem Askable.tracked (ha : w.Askable i pass f) (h : Tracked w log) :
    Tracked (w.ask i pass f).1 (log ++ [(w.ask i pass f).2]) := by
  obtain ⟨answer, stage, d, hr⟩ : ∃ answer stage d,
      f.plan.request pass.stage ⟨f.own, w.streams.tensors⟩ = (answer, stage, d) := ⟨_, _, _, rfl⟩
  refine ⟨fun p hp => ?_, fun j hj => ?_⟩
  · have hlen : (w.ask i pass f).1.feeds.length = w.feeds.length := List.length_set
    rw [hlen]
    rcases List.mem_or_eq_of_mem_set hp with hp | hp
    · exact h.wellFormed p hp
    · rw [hp]
      exact h.wellFormed pass (List.mem_of_getElem? ha.place)
  · -- the pass that was asked waits no more
    have hne : j ≠ i := by
      rintro rfl
      exact f.plan.stage_ne_waiting hr (hj _ (ha.pass_self hr))
    have hother : (w.ask i pass f).2.pass ≠ j := Ne.symm hne
    rw [answersOf_append, answersOf_ne hother, List.append_nil]
    exact h.silent j fun p hp => hj p (by rw [ask_pass_ne hne]; exact hp)

end Perception.Workbench
