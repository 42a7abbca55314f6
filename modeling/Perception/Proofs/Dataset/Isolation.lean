import Perception.Proofs.Dataset.OwnGenerator
import Perception.Proofs.Dataset.Workbench
import Perception.Proofs.Outcome

set_option autoImplicit false

/-! # Seeded feeds are isolated

A feed with a generator of its own, whose passes are made one at a time, is always at the start of
its next pass or in the middle of it, and its generator with it (`Workbench.Isolated`). Nothing that
is done between two requests makes a difference, so the passes over a feed that is opened with a
seed answer the same in every run (`Workbench.seeded_passes_isolated`).
-/

namespace Perception.Workbench

open Perception.Random

variable {w w' : Workbench} {a : Action} {log : List Event} {i j x n : Nat} {p : Pass} {f : Feed}
  {d : ArrayDataset} {l : BatchPlan} {g own : Generator} {stage : PassStage}

/-! ## Passes one at a time -/

def Rests (w : Workbench) (x : Nat) : Prop :=
  ∀ p ∈ w.passes, p.feed = x → p.stage = .waiting ∨ p.stage = .finished

instance (w : Workbench) (x : Nat) : Decidable (w.Rests x) :=
  inferInstanceAs (Decidable (∀ p ∈ w.passes, _ → _ ∨ _))

/-- An action asks a pass over a feed for the first time only where no other is under way. -/
def BeginsAtRest (x : Nat) (w : Workbench) (a : Action) : Prop :=
  ∀ i < w.passes.length, a.asks i = true → w.passes[i]? = some ⟨x, .waiting⟩ → w.Rests x

instance (x : Nat) (w : Workbench) (a : Action) : Decidable (BeginsAtRest x w a) :=
  inferInstanceAs (Decidable (∀ i < w.passes.length, _ → _ → _))

/-- The passes over a feed are made one at a time. -/
def OneAtATime (x : Nat) : Workbench → List Action → Prop := Throughout (BeginsAtRest x)

instance (x : Nat) (w : Workbench) (as : List Action) : Decidable (OneAtATime x w as) :=
  inferInstanceAs (Decidable (Throughout (BeginsAtRest x) w as))

/-- No pass over a feed is under way, but for one if it is given. -/
def RestsBut (w : Workbench) (x : Nat) (busy : Option Nat) : Prop :=
  ∀ (j : Nat) (stage : PassStage), w.passes[j]? = some ⟨x, stage⟩ → busy ≠ some j →
    stage = .waiting ∨ stage = .finished

theorem rests_iff : w.Rests x ↔ w.RestsBut x none := by
  constructor
  · intro h j stage hj _
    exact h _ (List.mem_of_getElem? hj) rfl
  · rintro h ⟨y, stage⟩ hp rfl
    obtain ⟨j, hj⟩ := List.mem_iff_getElem?.mp hp
    exact h j stage hj nofun

theorem RestsBut.quiet {busy : Option Nat} (hq : Quiet w w') (h : w.RestsBut x busy) :
    w'.RestsBut x busy := by
  intro j stage hj hne
  obtain ⟨ps, hps, hnew⟩ := hq.passes
  rw [hps] at hj
  by_cases hlt : j < w.passes.length
  · rw [List.getElem?_append_left hlt] at hj
    exact h j stage hj hne
  · rw [List.getElem?_append_right (Nat.not_lt.mp hlt)] at hj
    exact Or.inl (hnew _ (List.mem_of_getElem? hj)).1

/-! ## The pass that is under way -/

/-- The answers of pass `n` over a feed whose generator started like this. -/
def ownAnswers (d : ArrayDataset) (l : BatchPlan) (g : Generator) (n : Nat) :
    List (Option (Outcome Batch)) :=
  (l.answers (l.ordered (l.afterPasses g n)).1).map (Option.map d.batch)

/-- Pass `n` over a feed has begun, and answers as it should. -/
structure Underway (d : ArrayDataset) (l : BatchPlan) (g : Generator) (n : Nat) (stage : PassStage)
    (own : Generator) (answered : List (Option (Outcome Batch))) : Prop where
  begun : stage ≠ .waiting
  settles : stage.settled l own = l.afterPasses g (n + 1)
  answers : answered ++ (stage.rest l).map (Option.map d.batch) = ownAnswers d l g n

/-- **A request** brings a pass forward that is under way. -/
theorem Underway.request {answered : List (Option (Outcome Batch))} {shared : Generator}
    {answer : Option (List Nat)} {stage' : PassStage} {drawn : Draws}
    (h : Underway d l g n stage own answered) (hnot : stage ≠ .finished)
    (hr : l.request stage ⟨some own, shared⟩ = (answer, stage', drawn)) :
    ∃ own', drawn = ⟨some own', shared⟩ ∧
      Underway d l g n stage' own' (answered ++ [answer.map d.batch]) := by
  obtain ⟨own', rfl, hrest, hsettled⟩ := l.rest_request_own h.begun hnot hr
  refine ⟨own', rfl, l.stage_ne_waiting hr, hsettled.trans h.settles, ?_⟩
  rw [← h.answers, hrest, List.map_cons, List.append_assoc, List.singleton_append]

/-- **The first request** begins a pass. -/
theorem underway_first {shared : Generator} {answer : Option (List Nat)} {stage' : PassStage}
    {drawn : Draws} (hown : own = l.afterPasses g n)
    (hr : l.request .waiting ⟨some own, shared⟩ = (answer, stage', drawn)) :
    ∃ own', drawn = ⟨some own', shared⟩ ∧
      Underway d l g n stage' own' [answer.map d.batch] := by
  obtain ⟨own', rfl, hrest, hsettled⟩ := l.rest_first_request_own hr
  subst hown
  refine ⟨own', rfl, l.stage_ne_waiting hr, hsettled, ?_⟩
  rw [ownAnswers, hrest, List.map_cons, List.singleton_append]

theorem Underway.finished {answered : List (Option (Outcome Batch))}
    (h : Underway d l g n .finished own answered) :
    own = l.afterPasses g (n + 1) ∧ answered = ownAnswers d l g n :=
  ⟨h.settles, by rw [← h.answers]; exact (List.append_nil _).symm⟩

/-! ## The state of a feed -/

/-- Where the feed is after `n` passes: at the start of the next one, or in the middle of it. -/
inductive Position (d : ArrayDataset) (l : BatchPlan) (g : Generator) (x n : Nat) (w : Workbench)
    (log : List Event) : Prop
  | idle (hf : w.feeds[x]? = some ⟨d, l, some (l.afterPasses g n)⟩) (hrest : w.RestsBut x none)
  | busy (i : Nat) (stage : PassStage) (own : Generator) (hf : w.feeds[x]? = some ⟨d, l, some own⟩)
      (hp : w.passes[i]? = some ⟨x, stage⟩) (hnot : stage ≠ .finished)
      (hway : Underway d l g n stage own (answersOf i log)) (hrest : w.RestsBut x (some i))

theorem Position.feed (h : Position d l g x n w log) :
    ∃ own, w.feeds[x]? = some ⟨d, l, some own⟩ := by
  cases h with
  | idle hf _ => exact ⟨_, hf⟩
  | busy _ _ own hf => exact ⟨own, hf⟩

/-- A feed whose generator started like this has been asked for one pass after another. -/
structure Isolated (d : ArrayDataset) (l : BatchPlan) (g : Generator) (x : Nat) (w : Workbench)
    (log : List Event) : Prop where
  tracked : Tracked w log
  /-- The passes that are over answered as they should. -/
  ended : ∀ k i, (endedIn x log)[k]? = some i →
    w.passes[i]? = some ⟨x, .finished⟩ ∧ answersOf i log = ownAnswers d l g k
  position : Position d l g x (endedIn x log).length w log

/-- A feed that has just been opened. -/
theorem isolated_nil (hw : w.WellFormed) (hf : w.feeds[x]? = some ⟨d, l, some g⟩)
    (hrest : w.RestsBut x none) : Isolated d l g x w [] :=
  ⟨tracked_nil hw, fun _ _ h => absurd h (by simp [endedIn]), .idle hf hrest⟩

theorem Position.quiet (hq : Quiet w w') (h : Position d l g x n w log) :
    Position d l g x n w' log := by
  cases h with
  | idle hf hrest => exact .idle (hq.feed_at hf) (hrest.quiet hq)
  | busy i stage own hf hp hnot hway hrest =>
      exact .busy i stage own (hq.feed_at hf) (hq.pass_at hp) hnot hway (hrest.quiet hq)

theorem Isolated.quiet (hq : Quiet w w') (h : Isolated d l g x w log) :
    Isolated d l g x w' log :=
  ⟨hq.tracked h.tracked,
    fun k i hk => ⟨hq.pass_at (h.ended k i hk).1, (h.ended k i hk).2⟩, h.position.quiet hq⟩

/-- Passes that are over stay as they are when another one is asked. -/
theorem Isolated.ended_ask (ha : w.Askable i p f) (h : Isolated d l g x w log) {k : Nat}
    (hk : (endedIn x log)[k]? = some j) :
    (w.ask i p f).1.passes[j]? = some ⟨x, .finished⟩ ∧
      answersOf j (log ++ [(w.ask i p f).2]) = ownAnswers d l g k := by
  obtain ⟨hover, hanswers⟩ := h.ended k j hk
  have hji : j ≠ i := by
    rintro rfl
    exact ha.notOver (congrArg Pass.stage (Option.some.inj (ha.place.symm.trans hover)))
  refine ⟨(ask_pass_ne hji).trans hover, ?_⟩
  rw [answersOf_append, answersOf_ne (Ne.symm hji), List.append_nil, hanswers]

/-! ## Requests to other feeds -/

/-- A request to a pass over another feed changes nothing about this one. -/
theorem Isolated.ask_other (ha : w.Askable i p f) (hne : p.feed ≠ x)
    (h : Isolated d l g x w log) :
    Isolated d l g x (w.ask i p f).1 (log ++ [(w.ask i p f).2]) := by
  have hfeed : (w.ask i p f).1.feeds[x]? = w.feeds[x]? := ask_feed_ne (Ne.symm hne)
  -- the pass that is asked is none of this feed
  have hother : ∀ {j : Nat} {stage : PassStage}, w.passes[j]? = some ⟨x, stage⟩ → j ≠ i := by
    rintro j stage hj rfl
    have hsame : p = ⟨x, stage⟩ := Option.some.inj (ha.place.symm.trans hj)
    exact hne (congrArg Pass.feed hsame)
  have hpass : ∀ {j : Nat} {stage : PassStage}, w.passes[j]? = some ⟨x, stage⟩ →
      (w.ask i p f).1.passes[j]? = some ⟨x, stage⟩ ∧
        answersOf j (log ++ [(w.ask i p f).2]) = answersOf j log := by
    intro j stage hj
    refine ⟨(ask_pass_ne (hother hj)).trans hj, ?_⟩
    rw [answersOf_append, answersOf_ne (Ne.symm (hother hj)), List.append_nil]
  have hback : ∀ {j : Nat} {stage : PassStage}, (w.ask i p f).1.passes[j]? = some ⟨x, stage⟩ →
      w.passes[j]? = some ⟨x, stage⟩ := by
    intro j stage hj
    by_cases hji : j = i
    · subst hji
      rw [ha.pass_self rfl] at hj
      exact absurd (congrArg Pass.feed (Option.some.inj hj)) hne
    · rwa [ask_pass_ne hji] at hj
  have hended : endedIn x (log ++ [(w.ask i p f).2]) = endedIn x log := by
    rw [endedIn_append, endedIn_other (fun hx => absurd hx hne), List.append_nil]
  refine ⟨ha.tracked h.tracked, fun k j hk => ?_, ?_⟩
  · rw [hended] at hk
    exact h.ended_ask ha hk
  · rw [hended]
    cases h.position with
    | idle hf hrest => exact .idle (hfeed.trans hf) fun j stage hj => hrest j stage (hback hj)
    | busy j stage own hf hp hnot hway hrest =>
        refine .busy j stage own (hfeed.trans hf) (hpass hp).1 hnot ?_
          (fun j' stage' hj' => hrest j' stage' (hback hj'))
        rw [(hpass hp).2]
        exact hway

/-! ## Requests to the feed -/

/-- A pass over the feed that can be asked is the one that is under way, or the next one. It answers
what it should, and draws from the feed's own generator. -/
theorem Isolated.underway (ha : w.Askable i p f) (hx : p.feed = x)
    (hone : p.stage = .waiting → w.RestsBut x none) (h : Isolated d l g x w log) :
    ∃ answer stage own, (w.ask i p f).2 = ⟨x, i, answer⟩ ∧ (answer = none ↔ stage = .finished) ∧
      (w.ask i p f).1.passes[i]? = some ⟨x, stage⟩ ∧
      (w.ask i p f).1.feeds[x]? = some ⟨d, l, some own⟩ ∧
      Underway d l g (endedIn x log).length stage own (answersOf i log ++ [answer]) ∧
      w.RestsBut x (some i) := by
  obtain ⟨y, stage⟩ := p
  obtain rfl : y = x := hx
  obtain ⟨own, hf⟩ : ∃ own, w.feeds[y]? = some ⟨d, l, some own⟩ := h.position.feed
  obtain rfl : f = ⟨d, l, some own⟩ := Option.some.inj (ha.source.symm.trans hf)
  obtain ⟨answer, stage', drawn, hr⟩ : ∃ answer stage' drawn,
      l.request stage ⟨some own, w.streams.tensors⟩ = (answer, stage', drawn) := ⟨_, _, _, rfl⟩
  have hended : answer.map d.batch = none ↔ stage' = .finished := by
    rw [Option.map_eq_none_iff]
    exact l.request_none_iff hr
  -- the pass is the one under way, or else none is
  obtain ⟨own', rfl, hway, hrest⟩ : ∃ own', drawn = ⟨some own', w.streams.tensors⟩ ∧
      Underway d l g (endedIn y log).length stage' own' (answersOf i log ++ [answer.map d.batch]) ∧
      w.RestsBut y (some i) := by
    cases h.position with
    | idle hf' hrest =>
        obtain rfl : stage = .waiting := (hrest i stage ha.place nofun).resolve_right ha.notOver
        have hown := Option.some.inj
          (congrArg Feed.own (Option.some.inj (ha.source.symm.trans hf')))
        obtain ⟨own', hdrawn, hway⟩ := underway_first hown hr
        rw [h.tracked.silent i (fun q hq => by
          rw [← Option.some.inj (ha.place.symm.trans hq)]), List.nil_append]
        exact ⟨own', hdrawn, hway, fun j stage' hj _ => hrest j stage' hj nofun⟩
    | busy j stage₀ own₀ hf' hp hnot hway hrest =>
        by_cases hji : j = i
        · subst hji
          obtain rfl : stage = stage₀ :=
            congrArg Pass.stage (Option.some.inj (ha.place.symm.trans hp))
          obtain rfl : own = own₀ := Option.some.inj
            (congrArg Feed.own (Option.some.inj (ha.source.symm.trans hf')))
          obtain ⟨own', hdrawn, hway⟩ := hway.request hnot hr
          exact ⟨own', hdrawn, hway, hrest⟩
        · have hwaiting : stage = .waiting :=
            (hrest i stage ha.place (fun h => hji (Option.some.inj h))).resolve_right ha.notOver
          exact ((hone hwaiting j stage₀ hp nofun).elim hway.begun hnot).elim
  exact ⟨_, stage', own', ask_event hr, hended, ha.pass_self hr, ha.feed_self hr, hway, hrest⟩

/-- **A request to a pass over the feed** keeps it isolated. -/
theorem Isolated.ask_self (ha : w.Askable i p f) (hx : p.feed = x)
    (hone : p.stage = .waiting → w.RestsBut x none) (h : Isolated d l g x w log) :
    Isolated d l g x (w.ask i p f).1 (log ++ [(w.ask i p f).2]) := by
  obtain ⟨answer, stage, own, hevent, hended, hp, hf, hway, hrest⟩ := h.underway ha hx hone
  have hans : answersOf i (log ++ [(w.ask i p f).2]) = answersOf i log ++ [answer] := by
    rw [hevent, answersOf_append]
    exact congrArg _ (answersOf_self _)
  have hrest' : (w.ask i p f).1.RestsBut x (some i) := by
    intro j stage' hj hne
    have hji : j ≠ i := fun h => hne (congrArg some h.symm)
    rw [ask_pass_ne hji] at hj
    exact hrest j stage' hj hne
  rw [← hans] at hway
  by_cases hover : stage = .finished
  · -- the last answer ends the pass: the feed rests, and one more pass has ended
    subst hover
    obtain ⟨hown, hall⟩ := hway.finished
    have hlog : endedIn x (log ++ [(w.ask i p f).2]) = endedIn x log ++ [i] := by
      rw [endedIn_append, hevent]
      exact congrArg _ (endedIn_ended (hended.mpr rfl))
    refine ⟨ha.tracked h.tracked, fun k j hk => ?_, ?_⟩
    · rw [hlog] at hk
      by_cases hlt : k < (endedIn x log).length
      · rw [List.getElem?_append_left hlt] at hk
        exact h.ended_ask ha hk
      · have hbound := (List.getElem?_eq_some_iff.mp hk).1
        rw [List.length_append, List.length_singleton] at hbound
        obtain rfl : k = (endedIn x log).length := by omega
        rw [List.getElem?_concat_length] at hk
        obtain rfl := Option.some.inj hk
        exact ⟨hp, hall⟩
    · rw [hlog, List.length_append]
      refine .idle (hown ▸ hf) fun j stage' hj _ => ?_
      by_cases hji : j = i
      · subst hji
        exact Or.inr (congrArg Pass.stage (Option.some.inj (hj.symm.trans hp)))
      · exact hrest' j stage' hj (fun h => hji (Option.some.inj h).symm)
  · have hlog : endedIn x (log ++ [(w.ask i p f).2]) = endedIn x log := by
      rw [endedIn_append, endedIn_other, List.append_nil]
      rw [hevent]
      exact fun _ => mt hended.mp hover
    refine ⟨ha.tracked h.tracked, ?_, ?_⟩
    · rw [hlog]
      exact fun k j hk => h.ended_ask ha hk
    · rw [hlog]
      exact .busy i stage own hf hp hover hway hrest'

/-! ## Runs -/

/-- **Every action keeps the feed isolated**, if its passes are made one at a time. -/
theorem Isolated.step (hone : BeginsAtRest x w a) (h : Isolated d l g x w log) :
    Isolated d l g x (w.step a).1 (log ++ (w.step a).2.toList) := by
  rcases step_cases w a with ⟨hq, hnone⟩ | ⟨i, p, f, rfl, ha, hstep⟩
  · rw [hnone, Option.toList_none, List.append_nil]
    exact h.quiet hq
  · rw [hstep]
    by_cases hx : p.feed = x
    · refine h.ask_self ha hx fun hwaiting => ?_
      have hi : i < w.passes.length := (List.getElem?_eq_some_iff.mp ha.place).1
      refine rests_iff.mp (hone i hi (decide_eq_true rfl) (ha.place.trans ?_))
      rw [← hx, ← hwaiting]
    · exact h.ask_other ha hx

/-- **In every run** whose passes over the feed are made one at a time they answer as they should. -/
theorem Isolated.run {as : List Action} (hone : OneAtATime x w as) (h : Isolated d l g x w log) :
    Isolated d l g x (w.run as).1 (log ++ (w.run as).2) :=
  run_induction (fun _ _ _ hP hInv => hInv.step hP) hone h

/-! ## What a seeded feed leaves alone -/

def ReadsOwn (w : Workbench) (x : Nat) (d : ArrayDataset) (l : BatchPlan) : Prop :=
  ∃ own, w.feeds[x]? = some ⟨d, l, some own⟩

theorem ReadsOwn.step (h : w.ReadsOwn x d l) (a : Action) : (w.step a).1.ReadsOwn x d l := by
  obtain ⟨own, hf⟩ := h
  obtain ⟨own', hf', hown⟩ := step_feed hf a
  obtain ⟨g, rfl⟩ : ∃ g, own' = some g := by
    rcases hown with hsame | ⟨stage, hdrawn⟩
    · exact ⟨own, hsame⟩
    · have hr : l.request stage ⟨some own, w.streams.tensors⟩ = (_, _, _) := rfl
      obtain ⟨g, hg⟩ := l.request_own hr
      exact ⟨g, hdrawn.trans (congrArg Draws.own hg)⟩
  exact ⟨g, hf'⟩

theorem ReadsOwn.run (h : w.ReadsOwn x d l) (as : List Action) :
    (w.run as).1.ReadsOwn x d l := by
  induction as generalizing w with
  | nil => exact h
  | cons a as ih => exact ih (h.step a)

/-- **A request to a pass over a feed with a generator of its own** leaves the shared ones alone. -/
theorem ReadsOwn.streams (h : w.ReadsOwn x d l) (hp : w.passes[i]? = some ⟨x, stage⟩) :
    (w.step (.request i)).1.streams = w.streams := by
  obtain ⟨own, hf⟩ := h
  by_cases hover : stage = .finished
  · subst hover
    rw [step_request_finished hp]
  · have ha : w.Askable i ⟨x, stage⟩ ⟨d, l, some own⟩ := ⟨hp, hf, hover⟩
    obtain ⟨answer, stage', drawn, hr⟩ : ∃ answer stage' drawn,
        l.request stage ⟨some own, w.streams.tensors⟩ = (answer, stage', drawn) := ⟨_, _, _, rfl⟩
    obtain ⟨own', rfl⟩ := l.request_own hr
    rw [ha.step_eq]
    simp only [ask, hr]

/-! ## Seeded feeds -/

/-- A feed that is opened with a seed reads the dataset by a generator of its own. -/
theorem exists_own_of_feed {o : BatchOptions} {pl : Platform} (hf : d.feed pl o = .ok f)
    (hseed : o.seed ≠ .null) : ∃ l g, f = ⟨d, l, some g⟩ := by
  obtain ⟨lo, hlo, hf⟩ := Outcome.exists_of_bind_ok hf
  obtain ⟨plan, -, hf⟩ := Outcome.exists_of_bind_ok hf
  obtain ⟨seed, hs, hlo⟩ := Outcome.exists_of_bind_ok hlo
  cases hlo
  cases hf
  obtain ⟨i, rfl⟩ : ∃ i, seed = some i := by
    unfold LoaderOptions.seedOf at hs
    split at hs
    · exact absurd ‹_› hseed
    · split at hs <;> cases hs
      exact ⟨_, rfl⟩
    · cases hs
  exact ⟨plan, _, rfl⟩

/-- A feed that has just been opened is isolated: it has no passes yet. -/
theorem isolated_addFeed (hw : w.WellFormed) (d : ArrayDataset) (l : BatchPlan) (g : Generator) :
    Isolated d l g w.feeds.length (w.addFeed ⟨d, l, some g⟩) [] := by
  have hlen : (w.addFeed ⟨d, l, some g⟩).feeds.length = w.feeds.length + 1 := by
    rw [addFeed, List.length_append, List.length_singleton]
  refine isolated_nil (fun p hp => ?_) List.getElem?_concat_length fun j stage hj _ => ?_
  · have := hw p hp
    omega
  · exact absurd (hw _ (List.mem_of_getElem? hj)) (Nat.lt_irrefl _)

/-- **The passes over a seeded feed are isolated.** Whatever the shared generators are, whatever is
done before the feed is opened and between two requests, pass `k` over it answers the same in two
runs, if passes over it are made one at a time. And neither beginning nor asking a pass over it
changes the shared generators. -/
theorem seeded_passes_isolated {pl : Platform} {o : BatchOptions} (hf : d.feed pl o = .ok f)
    (hseed : o.seed ≠ .null) :
    (∀ (w w' : Workbench) (as as' : List Action), w.WellFormed → w'.WellFormed →
      OneAtATime w.feeds.length (w.addFeed f) as → OneAtATime w'.feeds.length (w'.addFeed f) as' →
      let log := ((w.addFeed f).run as).2
      let log' := ((w'.addFeed f).run as').2
      ∀ (k i i' : Nat), (endedIn w.feeds.length log)[k]? = some i →
        (endedIn w'.feeds.length log')[k]? = some i' → answersOf i log = answersOf i' log') ∧
    (∀ (w : Workbench) (as : List Action),
      let now := ((w.addFeed f).run as).1
      (now.step (.beginPass w.feeds.length)).1.streams = now.streams ∧
        ∀ (i : Nat) (stage : PassStage), now.passes[i]? = some ⟨w.feeds.length, stage⟩ →
          (now.step (.request i)).1.streams = now.streams) := by
  obtain ⟨l, g, rfl⟩ := exists_own_of_feed hf hseed
  refine ⟨fun w w' as as' hw hw' hone hone' => ?_, fun w as => ?_⟩
  · intro log log' k i i' hi hi'
    -- both passes are the same one of the generator that the feed has for itself
    have h := (isolated_addFeed hw d l g).run hone
    have h' := (isolated_addFeed hw' d l g).run hone'
    rw [List.nil_append] at h h'
    exact (h.ended k i hi).2.trans (h'.ended k i' hi').2.symm
  · have hown : (w.addFeed ⟨d, l, some g⟩).ReadsOwn w.feeds.length d l :=
      ⟨g, List.getElem?_concat_length⟩
    have hnow := hown.run as
    refine ⟨?_, fun i stage hi => hnow.streams hi⟩
    obtain ⟨own, hx⟩ := hnow
    rw [step_beginPass (List.getElem?_eq_some_iff.mp hx).1]

def twoSamples : ArrayDataset :=
  ⟨⟨.signed 64, [2], #[.int 5, .int 6]⟩, ⟨.signed 64, [2], #[.int 0, .int 0]⟩⟩

/-- A pass made at once, and the same pass with a seeding and another feed of the dataset in
between, on different streams. -/
theorem seeded_passes_isolated_interleaved :
    let o : BatchOptions := ⟨.int 1, .bool false, .bool false, .int 7, .int 0, .null⟩
    let pl : Platform := ⟨"Linux", "x86_64", some 8, false⟩
    let w : Workbench := ⟨.ofSeed 1, [], []⟩
    let w' : Workbench := ⟨.ofSeed 2, [], []⟩
    let as : List Action := [.beginPass 0, .request 0, .request 0, .request 0]
    let as' : List Action := [.beginPass 0, .request 0, .seed (.int 5), .openFeed twoSamples pl o,
      .beginPass 1, .request 1, .request 0, .request 0]
    ∃ f, twoSamples.feed pl o = .ok f ∧
      answersOf 0 ((w.addFeed f).run as).2 = answersOf 0 ((w'.addFeed f).run as').2 := by
  intro o pl w w' as as'
  have hseed : o.seed ≠ .null := nofun
  have hempty : ∀ s, (⟨s, [], []⟩ : Workbench).WellFormed :=
    fun _ p hp => absurd hp List.not_mem_nil
  obtain ⟨hpasses, -⟩ := @seeded_passes_isolated _ twoSamples pl o rfl hseed
  refine ⟨_, rfl, ?_⟩
  exact hpasses w w' as as' (hempty _) (hempty _) (by decide) (by decide) 0 0 0 rfl rfl

end Perception.Workbench
