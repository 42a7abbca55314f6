import Perception.Failure

set_option autoImplicit false

/-! # Outcomes that are good

Where a computation of several parts succeeds, each part did (`Outcome.exists_of_bind_ok`,
`Outcome.forall_of_mapM_ok`). So it is with computations that change a state on their way
(`Outcome.exists_of_run_bind_ok`), parts of which they may leave alone (`Outcome.Leaves`), and which
may fail for some reasons and not for others (`Outcome.Avoids`). Two computations end alike if both
fail for one reason or have related results (`Outcome.Related`).
-/

namespace Perception.Outcome

variable {α β : Type}

/-- If one computation after another succeeds, both do. -/
theorem exists_of_bind_ok {x : Outcome α} {f : α → Outcome β} {b : β} (h : x >>= f = .ok b) :
    ∃ a, x = .ok a ∧ f a = .ok b := by
  cases x with
  | error e => cases h
  | ok a => exact ⟨a, rfl, h⟩

theorem exists_of_map_ok {ε : Type} {x : Except ε α} {f : α → β} {b : β} (h : x.map f = .ok b) :
    ∃ a, x = .ok a ∧ f a = b := by
  cases x with
  | error e => cases h
  | ok a =>
      cases h
      exact ⟨a, rfl, rfl⟩

theorem eq_error_of_map {ε : Type} {x : Except ε α} {f : α → β} {e : ε} (h : x.map f = .error e) :
    x = .error e := by
  cases x with
  | error e' =>
      cases h
      rfl
  | ok a => cases h

/-- A computation that succeeds on all items has one result for each, with what all its results
have. -/
theorem forall_of_mapM_ok {P : β → Prop} {f : α → Outcome β} (hP : ∀ x y, f x = .ok y → P y)
    {xs : List α} {ys : List β} (h : xs.mapM f = .ok ys) :
    ys.length = xs.length ∧ ∀ y ∈ ys, P y := by
  induction xs generalizing ys with
  | nil =>
      cases h
      exact ⟨rfl, fun y hy => absurd hy List.not_mem_nil⟩
  | cons x xs ih =>
      rw [List.mapM_cons] at h
      obtain ⟨y, hy, h⟩ := exists_of_bind_ok h
      obtain ⟨ys, hys, h⟩ := exists_of_bind_ok h
      cases h
      obtain ⟨hlen, hall⟩ := ih hys
      refine ⟨by rw [List.length_cons, List.length_cons, hlen], fun z hz => ?_⟩
      rcases List.mem_cons.mp hz with rfl | hz
      · exact hP x z hy
      · exact hall z hz

theorem mapM_ok {f : α → Outcome β} {g : α → β} {xs : List α} (h : ∀ x ∈ xs, f x = .ok (g x)) :
    xs.mapM f = .ok (xs.map g) := by
  induction xs with
  | nil => rfl
  | cons x xs ih =>
      have hrest := ih fun y hy => h y (List.mem_cons_of_mem _ hy)
      rw [List.mapM_cons, h x List.mem_cons_self, hrest]
      rfl

/-! ## Two computations side by side -/

/-- Both computations fail for the same reason, or both succeed with results that are related. -/
inductive Related (R : α → β → Prop) : Outcome α → Outcome β → Prop
  | ok {a : α} {b : β} (h : R a b) : Related R (.ok a) (.ok b)
  | error (e : Failure) : Related R (.error e) (.error e)

theorem Related.bind {γ δ : Type} {R : α → β → Prop} {S : γ → δ → Prop} {x : Outcome α}
    {y : Outcome β} {f : α → Outcome γ} {g : β → Outcome δ} (h : Related R x y)
    (hfg : ∀ a b, R a b → Related S (f a) (g b)) : Related S (x >>= f) (y >>= g) := by
  cases h with
  | ok hab => exact hfg _ _ hab
  | error e => exact .error e

/-! ## Computations with a state -/

variable {σ : Type} {x : ExceptT Failure (StateM σ) α} {f : α → ExceptT Failure (StateM σ) β}
  {s t u : σ} {a : α} {b : β} {e : Failure}

theorem run_bind_ok (hx : x.run s = (.ok a, t)) : (x >>= f).run s = (f a).run t := by
  have hx' : x s = (.ok a, t) := hx
  simp only [ExceptT.run, bind, ExceptT.bind, ExceptT.mk, StateT.bind, hx', ExceptT.bindCont]

theorem run_bind_error (hx : x.run s = (.error e, t)) : (x >>= f).run s = (.error e, t) := by
  have hx' : x s = (.error e, t) := hx
  simp only [ExceptT.run, bind, ExceptT.bind, ExceptT.mk, StateT.bind, hx', ExceptT.bindCont]
  rfl

/-- If one computation after another succeeds, both do. -/
theorem exists_of_run_bind_ok (h : (x >>= f).run s = (.ok b, u)) :
    ∃ a t, x.run s = (.ok a, t) ∧ (f a).run t = (.ok b, u) := by
  rcases hx : x.run s with ⟨o, t⟩
  cases o with
  | error e =>
      rw [run_bind_error hx] at h
      cases h
  | ok a => exact ⟨a, t, rfl, (run_bind_ok hx).symm.trans h⟩

theorem run_map (g : α → β) (x : ExceptT Failure (StateM σ) α) (s : σ) :
    (g <$> x).run s = ((x.run s).1.map g, (x.run s).2) := by
  rcases hx : x.run s with ⟨o, t⟩
  have hx' : x s = (o, t) := hx
  simp only [ExceptT.run, Functor.map, ExceptT.map, ExceptT.mk, bind, StateT.bind, hx']
  cases o <;> rfl

theorem run_tryCatch_ok {handle : Failure → ExceptT Failure (StateM σ) α}
    (hx : x.run s = (.ok a, t)) : (tryCatch x handle).run s = (.ok a, t) := by
  have hx' : x s = (.ok a, t) := hx
  simp only [ExceptT.run, tryCatch, tryCatchThe, MonadExceptOf.tryCatch, ExceptT.tryCatch,
    ExceptT.mk, bind, StateT.bind, hx']
  rfl

theorem run_tryCatch_error {handle : Failure → ExceptT Failure (StateM σ) α}
    (hx : x.run s = (.error e, t)) : (tryCatch x handle).run s = (handle e).run t := by
  have hx' : x s = (.error e, t) := hx
  simp only [ExceptT.run, tryCatch, tryCatchThe, MonadExceptOf.tryCatch, ExceptT.tryCatch,
    ExceptT.mk, bind, StateT.bind, hx']

/-! ## What is left alone -/

variable {τ : Type} {view : σ → τ}

/-- Computations that leave a part of the state as it is, whatever comes of them. -/
def Leaves (view : σ → τ) (x : ExceptT Failure (StateM σ) α) : Prop :=
  ∀ s, view (x.run s).2 = view s

theorem Leaves.bind (hx : Leaves view x) (hf : ∀ a, Leaves view (f a)) : Leaves view (x >>= f) := by
  intro s
  have hs := hx s
  rcases hrun : x.run s with ⟨o, t⟩
  rw [hrun] at hs
  cases o with
  | error e =>
      rw [run_bind_error hrun]
      exact hs
  | ok a =>
      rw [run_bind_ok hrun]
      exact (hf a t).trans hs

theorem leaves_pure (view : σ → τ) (a : α) :
    Leaves view (pure a : ExceptT Failure (StateM σ) α) := fun _ => rfl

theorem leaves_throw (view : σ → τ) (e : Failure) :
    Leaves view (throw e : ExceptT Failure (StateM σ) α) := fun _ => rfl

/-- If something comes after a computation that changes nothing, it starts where that did. -/
theorem Leaves.exists_of_bind_ok (hx : Leaves id x) (h : (x >>= f).run s = (.ok b, u)) :
    ∃ a, (x.run s).1 = .ok a ∧ (f a).run s = (.ok b, u) := by
  obtain ⟨a, t, hxa, hfa⟩ := exists_of_run_bind_ok h
  obtain rfl : t = s := (congrArg Prod.snd hxa).symm.trans (hx s)
  exact ⟨a, congrArg Prod.fst hxa, hfa⟩

/-- What comes of a computation that changes nothing. -/
theorem Leaves.run_eq (hx : Leaves id x) (s : σ) : x.run s = ((x.run s).1, s) :=
  Prod.ext rfl (hx s)

/-! ## Reasons to fail -/

/-- Computations that do not fail for a certain reason. -/
def Avoids (e : Failure) (x : ExceptT Failure (StateM σ) α) : Prop :=
  ∀ s, (x.run s).1 ≠ .error e

theorem Avoids.bind (hx : Avoids e x) (hf : ∀ a, Avoids e (f a)) : Avoids e (x >>= f) := by
  intro s
  have hs := hx s
  rcases hrun : x.run s with ⟨o, t⟩
  rw [hrun] at hs
  cases o with
  | error e' =>
      rw [run_bind_error hrun]
      intro he
      cases he
      exact hs rfl
  | ok a =>
      rw [run_bind_ok hrun]
      exact hf a t

theorem avoids_pure (e : Failure) (a : α) :
    Avoids e (pure a : ExceptT Failure (StateM σ) α) := fun _ => nofun

theorem avoids_throw {e' : Failure} (h : e' ≠ e) :
    Avoids e (throw e' : ExceptT Failure (StateM σ) α) := fun _ he => h (Except.error.inj he)

end Perception.Outcome
