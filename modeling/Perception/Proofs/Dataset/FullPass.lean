import Mathlib.Data.List.Forall2
import Perception.Proofs.Dataset.Sample
import Perception.Proofs.Dataset.Workbench

set_option autoImplicit false

/-! # Full passes

However the requests to a pass are interleaved with anything else, its answers are the batches of
one order of the samples and then that there are no more, as far as it was asked
(`Workbench.answers_run_waiting`). So every pass over a feed gives all samples once, in batches of
the size that was asked for, each with its own label (`Workbench.feed_fullPasses`).
-/

namespace Perception

/-! ## The answers of a pass -/

namespace Workbench

variable {w : Workbench} {i x : Nat} {d : ArrayDataset} {l : BatchPlan} {a : Action}
  {pass : Pass} {f : Feed}

/-- An action that does not ask a pass counts for nothing in its answers. -/
theorem answersOf_run_cons_of_not_asks (hnot : a.asks i = false) (hp : w.passes[i]? = some pass)
    (as : List Action) :
    answersOf i (w.run (a :: as)).2 = answersOf i ((w.step a).1.run as).2 ∧
      (a :: as).countP (Action.asks i) = as.countP (Action.asks i) := by
  obtain ⟨-, hsilent⟩ := step_pass_of_not_asks hnot hp
  refine ⟨?_, List.countP_cons_of_neg (by rw [hnot]; exact Bool.false_ne_true)⟩
  rw [run_cons_log, answersOf_append, hsilent, List.nil_append]

/-- A request to a pass that can be asked is answered before anything else. -/
theorem Askable.answersOf_run_cons (ha : w.Askable i pass f) {answer : Option (List Nat)}
    {stage : PassStage} {drawn : Draws}
    (hr : f.plan.request pass.stage ⟨f.own, w.streams.tensors⟩ = (answer, stage, drawn))
    (as : List Action) :
    answersOf i (w.run (.request i :: as)).2
        = answer.map f.data.batch :: answersOf i ((w.ask i pass f).1.run as).2 ∧
      (Action.request i :: as).countP (Action.asks i) = as.countP (Action.asks i) + 1 := by
  refine ⟨?_, List.countP_cons_of_pos (decide_eq_true rfl)⟩
  rw [run_cons_log, answersOf_append, ha.step_eq, ask_event hr]
  exact congrArg (· ++ _) (answersOf_self _)

/-- The answers of a pass in the middle of which other things happen are what was left to answer, as
far as it is asked. -/
theorem answers_run {stage : PassStage} (hp : w.passes[i]? = some ⟨x, stage⟩) (hx : w.Reads x d l)
    (hbegun : stage ≠ .waiting) (as : List Action) :
    answersOf i (w.run as).2
      = ((stage.rest l).map (Option.map d.batch)).take (as.countP (Action.asks i)) := by
  induction as generalizing w stage with
  | nil => rw [List.countP_nil, List.take_zero]; rfl
  | cons a as ih =>
      cases hasks : a.asks i with
      | false =>
          obtain ⟨hlog, hcount⟩ := answersOf_run_cons_of_not_asks hasks hp as
          rw [hlog, hcount, ih (step_pass_of_not_asks hasks hp).1 (hx.step a) hbegun]
      | true =>
          obtain rfl : a = .request i := Action.eq_request hasks
          by_cases hover : stage = .finished
          · -- the pass has nothing left to answer
            subst hover
            rw [run_cons_log, step_request_finished hp]
            show answersOf i (w.run as).2 = List.take _ []
            rw [ih hp hx hbegun]
            show List.take _ [] = List.take _ []
            rw [List.take_nil, List.take_nil]
          · obtain ⟨own, hf⟩ := id hx
            have ha : w.Askable i ⟨x, stage⟩ ⟨d, l, own⟩ := ⟨hp, hf, hover⟩
            obtain ⟨answer, stage', drawn, hr⟩ : ∃ answer stage' drawn,
                l.request stage ⟨own, w.streams.tensors⟩ = (answer, stage', drawn) := ⟨_, _, _, rfl⟩
            obtain ⟨hrest, -, hbegun'⟩ := l.rest_request hbegun hover hr
            obtain ⟨hlog, hcount⟩ := ha.answersOf_run_cons hr as
            have hx' := hx.step (.request i)
            rw [ha.step_eq] at hx'
            rw [hlog, hcount, ih (ha.pass_self hr) hx' hbegun', hrest, List.map_cons,
              List.take_succ_cons]

/-- **The answers of a pass** are those of a whole pass over the samples in some order, as far as it
is asked. -/
theorem answers_run_waiting (hp : w.passes[i]? = some ⟨x, .waiting⟩) (hx : w.Reads x d l)
    (as : List Action) :
    ∃ order, l.IsOrder order ∧ answersOf i (w.run as).2
      = ((l.answers order).map (Option.map d.batch)).take (as.countP (Action.asks i)) := by
  induction as generalizing w with
  | nil =>
      refine ⟨List.range l.count, ⟨.refl _, fun _ => rfl⟩, ?_⟩
      rw [List.countP_nil, List.take_zero]
      rfl
  | cons a as ih =>
      cases hasks : a.asks i with
      | false =>
          obtain ⟨hlog, hcount⟩ := answersOf_run_cons_of_not_asks hasks hp as
          rw [hlog, hcount]
          exact ih (step_pass_of_not_asks hasks hp).1 (hx.step a)
      | true =>
          -- the order is settled here, and the pass has begun
          obtain rfl : a = .request i := Action.eq_request hasks
          obtain ⟨own, hf⟩ := id hx
          have ha : w.Askable i ⟨x, .waiting⟩ ⟨d, l, own⟩ := ⟨hp, hf, nofun⟩
          obtain ⟨answer, stage, drawn, hr⟩ : ∃ answer stage drawn,
              l.request .waiting ⟨own, w.streams.tensors⟩ = (answer, stage, drawn) := ⟨_, _, _, rfl⟩
          obtain ⟨hrest, -, hbegun⟩ := l.rest_first_request hr
          obtain ⟨hlog, hcount⟩ := ha.answersOf_run_cons hr as
          have hx' := hx.step (.request i)
          rw [ha.step_eq] at hx'
          refine ⟨_, l.isOrder_order (BatchPlan.begin ⟨own, w.streams.tensors⟩), ?_⟩
          rw [hlog, hcount, answers_run (ha.pass_self hr) hx' hbegun, hrest, List.map_cons,
            List.take_succ_cons]

end Workbench

/-! ## The batches of a full pass -/

namespace ArrayDataset

variable {d : ArrayDataset} {l : BatchPlan} {order : List Nat}

/-- The answers of a pass that gives these batches: each of them, then that there are no more. -/
def fullAnswers (batches : List Batch) : List (Option (Outcome Batch)) :=
  batches.map (fun b => some (.ok b)) ++ [none]

/-- All batches of a pass over a dataset, each of the size that was asked for. -/
structure FullPass (d : ArrayDataset) (batchSize : Nat) (dropLast shuffle : Bool)
    (batches : List Batch) : Prop where
  /-- All batches are full but a last one, which holds the rest unless there is none or it is
  dropped. -/
  sizes : batches.map Batch.size = List.replicate (d.size / batchSize) batchSize ++
    if d.size % batchSize = 0 ∨ dropLast = true then [] else [d.size % batchSize]
  /-- No batch is empty. -/
  positive : ∀ b ∈ batches, 0 < b.size
  /-- A batch has as many labels as samples. -/
  labelled : ∀ b ∈ batches, b.labels.shape.headD 0 = b.size
  /-- The batches one after the other are the samples with their labels, less the rest if it is
  dropped, in order unless they are shuffled. -/
  pairs : ∃ order : List Nat, order.Perm (List.range d.size) ∧
    (shuffle = false → order = List.range d.size) ∧
    batches.flatMap Batch.pairs
      = (if dropLast then order.take (d.size / batchSize * batchSize) else order).map d.pair

/-- Batches of samples that there are. -/
theorem batches_ok (hd : d.WellFormed) {batched : List (List Nat)}
    (hne : ∀ indices ∈ batched, indices ≠ [])
    (hlt : ∀ indices ∈ batched, ∀ i ∈ indices, i < d.size) :
    ∃ batches, batched.map d.batch = batches.map .ok ∧
      List.Forall₂ d.IsBatch batched batches := by
  induction batched with
  | nil => exact ⟨[], rfl, .nil⟩
  | cons indices batched ih =>
      obtain ⟨b, hb, hisBatch⟩ := batch_ok hd (hne _ List.mem_cons_self) (hlt _ List.mem_cons_self)
      obtain ⟨batches, hmap, hall⟩ := ih (fun is h => hne is (List.mem_cons_of_mem _ h))
        (fun is h => hlt is (List.mem_cons_of_mem _ h))
      exact ⟨b :: batches, by rw [List.map_cons, hb, hmap, List.map_cons], .cons hisBatch hall⟩

theorem map_size_of_isBatch {batched : List (List Nat)} {batches : List Batch}
    (h : List.Forall₂ d.IsBatch batched batches) :
    batches.map Batch.size = batched.map List.length := by
  induction h with
  | nil => rfl
  | cons hb _ ih => rw [List.map_cons, List.map_cons, ih, hb.size]

theorem labelled_of_isBatch {batched : List (List Nat)} {batches : List Batch}
    (h : List.Forall₂ d.IsBatch batched batches) {b : Batch} (hmem : b ∈ batches) :
    b.labels.shape.headD 0 = b.size := by
  induction h with
  | nil => exact absurd hmem List.not_mem_nil
  | cons hb _ ih =>
      rcases List.mem_cons.mp hmem with rfl | hmem
      · rw [hb.labelCount, hb.size]
      · exact ih hmem

theorem flatMap_pairs_of_isBatch {batched : List (List Nat)} {batches : List Batch}
    (h : List.Forall₂ d.IsBatch batched batches) :
    batches.flatMap Batch.pairs = batched.flatten.map d.pair := by
  induction h with
  | nil => rfl
  | cons hb _ ih => rw [List.flatMap_cons, List.flatten_cons, List.map_append, ih, hb.pairs]

/-- **The batches of an order of the samples make a full pass.** -/
theorem fullPass_of_isOrder (hd : d.WellFormed) (hcount : l.count = d.size)
    (ho : l.IsOrder order) :
    ∃ batches, (l.answers order).map (Option.map d.batch) = fullAnswers batches ∧
      d.FullPass l.batchSize l.dropLast l.shuffle batches := by
  have hlen : order.length = d.size := by rw [ho.perm.length_eq, List.length_range, hcount]
  have hlt : ∀ indices ∈ l.batchesOf order, ∀ i ∈ indices, i < d.size := by
    intro indices h i hi
    have hmem := ho.perm.mem_iff.mp (l.mem_of_mem_batchesOf h hi)
    rwa [List.mem_range, hcount] at hmem
  obtain ⟨batches, hmap, hall⟩ := batches_ok hd (fun _ => l.ne_nil_of_mem_batchesOf) hlt
  have hsizes := map_size_of_isBatch hall
  refine ⟨batches, ?_, ?_, ?_, fun b => labelled_of_isBatch hall, order, ?_, ?_, ?_⟩
  · have hsome : ((l.batchesOf order).map some).map (Option.map d.batch)
        = ((l.batchesOf order).map d.batch).map some := by
      rw [List.map_map, List.map_map]
      rfl
    rw [BatchPlan.answers, List.map_append, hsome, hmap, List.map_map]
    rfl
  · rw [hsizes, l.map_length_batchesOf, hlen]
  · -- the sizes are those of lists that are not empty
    intro b hb
    have hmem : b.size ∈ (l.batchesOf order).map List.length := by
      rw [← hsizes]
      exact List.mem_map_of_mem hb
    obtain ⟨indices, hindices, hsize⟩ := List.mem_map.mp hmem
    rw [← hsize]
    exact List.length_pos_iff.mpr (l.ne_nil_of_mem_batchesOf hindices)
  · rw [← hcount]
    exact ho.perm
  · rw [← hcount]
    exact ho.plain
  · rw [flatMap_pairs_of_isBatch hall, l.flatten_batchesOf, hlen]

/-- A full pass has as many batches as the plan says. -/
theorem FullPass.length_eq {batches : List Batch}
    (h : d.FullPass l.batchSize l.dropLast l.shuffle batches) (hcount : l.count = d.size) :
    batches.length = l.batchCount := by
  have hrange : (List.range d.size).length = d.size := List.length_range
  have hlen := congrArg List.length
    (h.sizes.trans (hrange ▸ (l.map_length_batchesOf (List.range d.size)).symm))
  rw [List.length_map, List.length_map, l.length_batchesOf, hrange] at hlen
  rw [hlen, BatchPlan.batchCount, hcount]

/-- Options of a positive size, two flags and a seed that fits open a feed, if there are samples
where they are to be shuffled. -/
theorem feed_ok (d : ArrayDataset) (p : Platform) {o : BatchOptions} {b : Nat} (hb : 0 < b)
    (hsize : o.batchSize = .int b) {dropLast shuffle : Bool} (hdrop : o.dropLast = .bool dropLast)
    (hshuffle : o.shuffle = .bool shuffle)
    (hseed : o.seed = .null ∨ ∃ i, o.seed = .int i ∧ Random.Streams.isTensorSeed i = true)
    (hsome : shuffle = true → 0 < d.size) :
    ∃ own, d.feed p o = .ok ⟨d, ⟨d.size, b, dropLast, shuffle, hb⟩, own⟩ := by
  obtain ⟨seed, hseed⟩ : ∃ seed, LoaderOptions.seedOf o.seed = .ok seed := by
    rcases hseed with h | ⟨i, h, hi⟩
    · exact ⟨none, by rw [h]; rfl⟩
    · exact ⟨some i, by rw [h, LoaderOptions.seedOf, if_pos hi]⟩
  obtain ⟨lo, hlo, hmake⟩ : ∃ lo, LoaderOptions.ofOptions p o = .ok lo ∧
      BatchPlan.make d.size lo = .ok ⟨d.size, b, dropLast, shuffle, hb⟩ := by
    refine ⟨_, by rw [LoaderOptions.ofOptions, hseed]; rfl, ?_⟩
    obtain ⟨n, rfl⟩ : ∃ n, b = n + 1 := ⟨b - 1, by omega⟩
    have hnot : ¬(d.size = 0 ∧ shuffle = true) := fun h => absurd (hsome h.2) (by omega)
    simp only [BatchPlan.make, hsize, hdrop, hshuffle]
    exact if_neg hnot
  refine ⟨lo.seed.map Random.Generator.ofLowWord, ?_⟩
  rw [feed, hlo]
  show (BatchPlan.make d.size lo >>= fun plan => _) = _
  rw [hmake]
  rfl

end ArrayDataset

namespace Workbench

/-- **Every pass over a feed gives every sample once**, with its own label and in batches of the
size that was asked for. Whenever a pass is begun, and whatever else is done between two requests to
it, its answers are the batches of a full pass and then that there are no more, as far as it is
asked. -/
theorem feed_fullPasses {data labels : ArrayLike} (hdata : data.WellFormed)
    (hlabels : labels.WellFormed) {d : ArrayDataset} (hd : ArrayDataset.make data labels = .ok d)
    (p : Platform) {o : BatchOptions} {b : Nat} (hb : 0 < b) (hsize : o.batchSize = .int b)
    {dropLast shuffle : Bool} (hdrop : o.dropLast = .bool dropLast)
    (hshuffle : o.shuffle = .bool shuffle)
    (hseed : o.seed = .null ∨ ∃ i, o.seed = .int i ∧ Random.Streams.isTensorSeed i = true)
    (hsome : shuffle = true → 0 < d.size) :
    ∃ f, d.feed p o = .ok f ∧
      f.plan.batchCount = (if dropLast then d.size / b else (d.size + b - 1) / b) ∧
      ∀ (w : Workbench) (as bs : List Action),
        let now := ((w.addFeed f).run as).1
        let i := now.passes.length
        ∃ batches, d.FullPass b dropLast shuffle batches ∧ batches.length = f.plan.batchCount ∧
          answersOf i (now.run (.beginPass w.feeds.length :: bs)).2
            = (ArrayDataset.fullAnswers batches).take (bs.countP (Action.asks i)) := by
  obtain ⟨own, hf⟩ := d.feed_ok p hb hsize hdrop hshuffle hseed hsome
  refine ⟨_, hf, rfl, fun w as bs => ?_⟩
  intro now i
  have hreads : now.Reads w.feeds.length d ⟨d.size, b, dropLast, shuffle, hb⟩ :=
    Reads.run ⟨own, List.getElem?_concat_length⟩ as
  have hbegin := step_beginPass hreads.lt
  have hbegun := hreads.step (.beginPass w.feeds.length)
  rw [hbegin] at hbegun
  rw [run_cons_log, hbegin]
  -- the pass is answered along one order, and its batches are those of that order
  obtain ⟨order, horder, hanswers⟩ := answers_run_waiting List.getElem?_concat_length hbegun bs
  obtain ⟨batches, hbatches, hfull⟩ :=
    ArrayDataset.fullPass_of_isOrder (ArrayDataset.wellFormed_of_make hdata hlabels hd) rfl horder
  rw [hbatches] at hanswers
  exact ⟨batches, hfull, hfull.length_eq rfl, hanswers⟩

def threeSamples : ArrayDataset :=
  ⟨⟨.signed 64, [3], #[.int 5, .int 6, .int 7]⟩, ⟨.signed 64, [3], #[.int 0, .int 1, .int 0]⟩⟩

/-- Two passes at a time over the samples, two at a time and shuffled. -/
theorem feed_fullPasses_three :
    let p : Platform := ⟨"Linux", "x86_64", some 8, false⟩
    let o : BatchOptions := ⟨.int 2, .bool true, .bool false, .int 7, .int 0, .null⟩
    ∃ f, threeSamples.feed p o = .ok f ∧ f.plan.batchCount = 2 ∧
      ∀ streams,
        let now := ((addFeed ⟨streams, [], []⟩ f).run [.beginPass 0]).1
        ∃ batches, threeSamples.FullPass 2 false true batches ∧ batches.length = 2 ∧
          answersOf 1
              (now.run [.beginPass 0, .request 1, .request 0, .request 1, .request 0, .request 1]).2
            = ArrayDataset.fullAnswers batches := by
  intro p o
  have hmake : ArrayDataset.make (.nested (.list [.int 5, .int 6, .int 7]))
      (.nested (.list [.int 0, .int 1, .int 0])) = .ok threeSamples := rfl
  have hnested : ∀ x : Datum, (ArrayLike.nested x).WellFormed := fun _ => trivial
  obtain ⟨f, hf, hcount, hpasses⟩ := @feed_fullPasses _ _ (hnested _) (hnested _) _ hmake p o 2
    (by decide) rfl false true rfl rfl (Or.inr ⟨7, rfl, rfl⟩) (fun _ => by decide)
  refine ⟨f, hf, hcount, fun streams => ?_⟩
  obtain ⟨batches, hfull, hlen, hanswers⟩ := hpasses ⟨streams, [], []⟩ [.beginPass 0]
    [.request 1, .request 0, .request 1, .request 0, .request 1]
  have htwo : batches.length = 2 := hlen.trans hcount
  refine ⟨batches, hfull, htwo, hanswers.trans (List.take_of_length_le ?_)⟩
  have hasked : [Action.request 1, .request 0, .request 1, .request 0, .request 1].countP
      (Action.asks 1) = 3 := rfl
  rw [ArrayDataset.fullAnswers, List.length_append, List.length_map, htwo]
  exact Nat.le_of_eq hasked.symm

end Workbench

end Perception
