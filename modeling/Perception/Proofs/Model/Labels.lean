import Perception.Model.Query
import Perception.Proofs.Classification.Ranking
import Perception.Proofs.Files.Reading

set_option autoImplicit false

/-! # Labels for what a model says

A classifier puts labels to the outputs of a model: those that it read before if they are as many,
and else those that it reads now (`Classifier.Reading`). What fails leaves the labels alone
(`Classifier.predict_cases`). So after a run of queries a classifier has the labels of the last one
that succeeded, and each query puts labels to all outputs, as many as there are
(`Classifier.answers_labelled`).
-/

namespace Perception

theorem length_softmax (xs : List Float32) : (softmax xs).length = xs.length := by
  unfold softmax
  rw [List.length_map, List.length_map]

namespace Classifier

open Outcome

variable {c : Classifier} {h : Host} {n : Nat}

/-! ## Reading labels -/

def openLabels (c : Classifier) : HostM Path :=
  c.loader.repository.openFile c.loader.artifact labelFile

def findLabels (c : Classifier) : HostM (Option Path) :=
  tryCatch (some <$> c.openLabels) fun e => if e.kind = .notFound then pure none else throw e

def numbers (n : Nat) : List String := (List.range n).map toString

/-- What reading labels for so many outputs comes to. The file is looked for once: if there is none,
numbers are the labels, and if there is one, it must list as many labels as there are outputs. -/
inductive Reading (c : Classifier) (n : Nat) (h : Host) : Outcome (List String) → Host → Prop
  | numbered (e : Failure) (h' : Host) (missing : c.openLabels.run h = (.error e, h'))
      (kind : e.kind = .notFound) : Reading c n h (.ok (numbers n)) h'
  | unopened (e : Failure) (h' : Host) (failed : c.openLabels.run h = (.error e, h'))
      (kind : e.kind ≠ .notFound) : Reading c n h (.error e) h'
  | unread (path : Path) (e : Failure) (h' : Host) (opened : c.openLabels.run h = (.ok path, h'))
      (failed : (Host.readText path).run h' = (.error e, h')) : Reading c n h (.error e) h'
  | miscounted (path : Path) (text : String) (h' : Host)
      (opened : c.openLabels.run h = (.ok path, h'))
      (read : (Host.readText path).run h' = (.ok text, h'))
      (count : (Text.namesIn text).length ≠ n) :
      Reading c n h (.error (.synsetCount path.toString (Text.namesIn text).length n)) h'
  | listed (path : Path) (text : String) (h' : Host)
      (opened : c.openLabels.run h = (.ok path, h'))
      (read : (Host.readText path).run h' = (.ok text, h'))
      (count : (Text.namesIn text).length = n) : Reading c n h (.ok (Text.namesIn text)) h'

theorem readLabels_eq (c : Classifier) (n : Nat) :
    c.readLabels n = c.findLabels >>= fun path? =>
      match path? with
      | none => pure (numbers n)
      | some path => Host.readText path >>= fun text =>
          if ((Text.namesIn text).length : Int) = n then pure (Text.namesIn text)
          else throw (.synsetCount path.toString (Text.namesIn text).length n) := rfl

theorem reading_readLabels (c : Classifier) (n : Nat) (h : Host) :
    c.Reading n h ((c.readLabels n).run h).1 ((c.readLabels n).run h).2 := by
  rcases hopen : c.openLabels.run h with ⟨o, h'⟩
  have hsome : (some <$> c.openLabels).run h = (o.map some, h') := by
    rw [run_map, hopen]
  rw [readLabels_eq]
  cases o with
  | error e =>
      -- only a file that is not there makes the labels numbers
      by_cases hkind : e.kind = .notFound
      · have hcaught : c.findLabels.run h = (.ok none, h') := by
          rw [findLabels, run_tryCatch_error hsome, if_pos hkind]
          rfl
        rw [run_bind_ok hcaught]
        exact .numbered e h' hopen hkind
      · have hcaught : c.findLabels.run h = (.error e, h') := by
          rw [findLabels, run_tryCatch_error hsome, if_neg hkind]
          rfl
        rw [run_bind_error hcaught]
        exact .unopened e h' hopen hkind
  | ok path =>
      have hcaught : c.findLabels.run h = (.ok (some path), h') := run_tryCatch_ok hsome
      rw [run_bind_ok hcaught]
      have hread := (Host.leaves_readText path).run_eq h'
      cases htext : ((Host.readText path).run h').1 with
      | error e =>
          rw [htext] at hread
          rw [run_bind_error hread]
          exact .unread path e h' hopen hread
      | ok text =>
          rw [htext] at hread
          rw [run_bind_ok hread]
          by_cases hcount : (Text.namesIn text).length = n
          · have hint : ((Text.namesIn text).length : Int) = n := by rw [hcount]
            rw [if_pos hint]
            exact .listed path text h' hopen hread hcount
          · have hint : ((Text.namesIn text).length : Int) ≠ n := by omega
            rw [if_neg hint]
            exact .miscounted path text h' hopen hread hcount

/-- Labels that were read are as many as the outputs. -/
theorem Reading.length {names : List String} {h' : Host} (hr : c.Reading n h (.ok names) h') :
    names.length = n := by
  cases hr with
  | numbered => rw [numbers, List.length_map, List.length_range]
  | listed path text h' opened read count => exact count

/-! ## Putting labels to outputs -/

/-- Each output with its label: the names in the order of the outputs, and the probabilities. -/
def scored (names : List String) (outputs : List Float32) : List Scored :=
  List.zipWith Scored.mk (names.map .text) ((softmax outputs).map Float32.toFloat)

/-- Are these so many of the best, or all if there are fewer? Outputs whose probabilities are not
numbers have no best. -/
def AreBest (items : List Scored) (k : Int) (best : List Scored) : Prop :=
  (∀ s ∈ items, s.probability.isNaN = false) →
    best.length = min k.toNat items.length ∧
      ∃ ranked, IsRanking items ranked ∧ best = ranked.take k.toNat

variable {names : List String} {outputs : List Float32} {k : Int}

theorem length_scored (hlen : names.length = outputs.length) :
    (scored names outputs).length = outputs.length := by
  rw [scored, List.length_zipWith, List.length_map, List.length_map, length_softmax, hlen,
    Nat.min_self]

/-- The best of equally many labels and outputs. -/
theorem rank_eq (hlen : names.length = outputs.length) (hk : 1 ≤ k) :
    rank names (softmax outputs) (.int k)
      = .ok ((ranking (scored names outputs)).take k.toNat) := by
  have hcount : (names.map Datum.text).length = ((softmax outputs).map Float32.toFloat).length := by
    rw [List.length_map, List.length_map, length_softmax, hlen]
  have hfew : 0 ≤ k := by omega
  have hmake : Classification.make (names.map .text) ((softmax outputs).map Float32.toFloat)
      = .ok ⟨scored names outputs⟩ := if_pos hcount
  rw [rank, hmake]
  show Except.ok (Datum.upTo k (ranking (scored names outputs))) = _
  rw [Datum.upTo, if_pos hfew]

theorem areBest_take (items : List Scored) (k : Int) :
    AreBest items k ((ranking items).take k.toNat) := by
  intro hnumbers
  have hranking := isRanking_ranking hnumbers
  refine ⟨?_, ranking items, hranking, rfl⟩
  rw [List.length_take, hranking.length_eq]

/-! ## One prediction -/

variable {model : Reals → List Float32} {im : Image} {batch : Reals}

theorem checkRanks_int (k : Int) :
    checkRanks (.int k) = if k < 1 then .error (.rankCount (Datum.int k).shown) else .ok () := by
  simp only [checkRanks, decide_eq_true_eq]

theorem check_enough (hk : 1 ≤ k) (im : Image) :
    (checkRanks (.int k) >>= fun _ => prepare im) = prepare im := by
  rw [checkRanks_int, if_neg (by omega)]
  rfl

/-- What is refused before the model is asked changes nothing. -/
theorem run_predict_refused {ranks : Datum} {e : Failure}
    (hrefused : (checkRanks ranks >>= fun _ => prepare im) = .error e) :
    (c.predict model im ranks).run h = (.ok (.error e, c), h) := by
  unfold predict
  rw [hrefused]
  rfl

/-- What is answered with labels, or where there are none, and the classifier afterwards. -/
def answerWith (c : Classifier) (outputs : List Float32) (k : Int) :
    Outcome (List String) → Outcome (List Scored) × Classifier
  | .ok names => (rank names (softmax outputs) (.int k), { c with labels := some names })
  | .error e => (.error e, c)

/-- What is accepted is answered with the labels that there are. -/
theorem run_predict_accepted (hk : 1 ≤ k) (hbatch : prepare im = .ok batch)
    {o : Outcome (List String)} {h' : Host}
    (hlabels : (c.labelsFor (model batch).length).run h = (o, h')) :
    (c.predict model im (.int k)).run h = (.ok (c.answerWith (model batch) k o), h') := by
  have hready : (checkRanks (.int k) >>= fun _ => prepare im) = .ok batch :=
    (check_enough hk im).trans hbatch
  have hattempt : (tryCatch (Except.ok <$> c.labelsFor (softmax (model batch)).length) fun e =>
      pure (.error e) : HostM (Outcome (List String))).run h = (.ok o, h') := by
    have hmap : (Except.ok <$> c.labelsFor (softmax (model batch)).length
        : HostM (Outcome (List String))).run h = (o.map Except.ok, h') := by
      rw [run_map, length_softmax, hlabels]
    cases o with
    | ok names => exact run_tryCatch_ok hmap
    | error e => exact run_tryCatch_error hmap
  unfold predict
  rw [hready]
  dsimp only
  rw [run_bind_ok hattempt]
  cases o <;> rfl

theorem labelsFor_kept (hlabels : c.labels = some names) (hlen : names.length = n) :
    c.labelsFor n = pure names := by
  rw [labelsFor, hlabels]
  exact if_pos hlen

theorem labelsFor_read (hnot : ∀ names, c.labels = some names → names.length ≠ n) :
    c.labelsFor n = c.readLabels n := by
  unfold labelsFor
  cases hlabels : c.labels with
  | none => rfl
  | some names => exact if_neg (hnot names hlabels)

/-- A file that lists another number of labels is refused. -/
theorem Reading.miscount {o : Outcome (List String)} {h' g : Host} {path : Path} {text : String}
    (hr : c.Reading n h o h') (hopen : c.openLabels.run h = (.ok path, g))
    (htext : ((Host.readText path).run g).1 = .ok text) (hcount : (Text.namesIn text).length ≠ n) :
    o = .error (.synsetCount path.toString (Text.namesIn text).length n) := by
  cases hr with
  | numbered e h' missing kind => cases hopen.symm.trans missing
  | unopened e h' failed kind => cases hopen.symm.trans failed
  | unread path' e h' opened failed =>
      cases hopen.symm.trans opened
      cases htext.symm.trans (congrArg Prod.fst failed)
  | miscounted path' text' h' opened read count =>
      cases hopen.symm.trans opened
      cases htext.symm.trans (congrArg Prod.fst read)
      rfl
  | listed path' text' h' opened read count =>
      cases hopen.symm.trans opened
      cases htext.symm.trans (congrArg Prod.fst read)
      exact absurd count hcount

end Classifier

/-! ## One query -/

namespace Query

open Classifier Outcome

/-- What a query does to a classifier and a machine. -/
structure Effect (q : Query) (c : Classifier) (h : Host) (o : Outcome (List Scored))
    (c' : Classifier) (h' : Host) : Prop where
  loader : c'.loader = c.loader
  /-- What fails leaves the labels alone. -/
  failed : ∀ e, o = .error e → c'.labels = c.labels
  /-- Fewer than one are refused at once. -/
  tooFew : q.ranks < 1 → h' = h ∧ ∃ e, o = .error e ∧ e.kind = .value
  /-- What succeeds has the best of all outputs, each with its label. -/
  succeeded : ∀ best, o = .ok best → 1 ≤ q.ranks ∧ ∃ batch names, prepare q.image = .ok batch ∧
    names.length = (q.model batch).length ∧ c'.labels = some names ∧
    (scored names (q.model batch)).length = (q.model batch).length ∧
    AreBest (scored names (q.model batch)) q.ranks best
  /-- Labels that are as many as the outputs are used again. Neither the repository nor the machine
  has a part in it. -/
  kept : ∀ batch names, 1 ≤ q.ranks → prepare q.image = .ok batch → c.labels = some names →
    names.length = (q.model batch).length →
    c'.labels = some names ∧ h' = h ∧ (∃ best, o = .ok best) ∧
      ∀ l g, ((⟨l, some names⟩ : Classifier).predict q.model q.image (.int q.ranks)).run g
        = (.ok (o, ⟨l, some names⟩), g)
  /-- Otherwise labels are read, once, and used from then on. -/
  read : ∀ batch, 1 ≤ q.ranks → prepare q.image = .ok batch →
    (∀ names, c.labels = some names → names.length ≠ (q.model batch).length) →
    ∃ labels, c.Reading (q.model batch).length h labels h' ∧
      (∀ names, labels = .ok names → c'.labels = some names ∧ ∃ best, o = .ok best) ∧
      ∀ e, labels = .error e → o = .error e
  /-- A file that lists another number of labels is refused. -/
  miscounted : ∀ batch path text g, 1 ≤ q.ranks → prepare q.image = .ok batch →
    (∀ names, c.labels = some names → names.length ≠ (q.model batch).length) →
    c.openLabels.run h = (.ok path, g) → ((Host.readText path).run g).1 = .ok text →
    (Text.namesIn text).length ≠ (q.model batch).length → ∃ e, o = .error e ∧ e.kind = .value

variable {q : Query} {c : Classifier} {h : Host}

/-- An image is prepared in one way. -/
theorem prepare_unique {im : Image} {batch batch' : Reals} (h : prepare im = .ok batch)
    (h' : prepare im = .ok batch') : batch' = batch :=
  Except.ok.inj (h'.symm.trans h)

/-- A query that is refused before the model is asked. -/
theorem effect_refused {e : Failure}
    (hrefused : (checkRanks (.int q.ranks) >>= fun _ => prepare q.image) = .error e) :
    q.Effect c h (.error e) c h := by
  have hnone : ∀ batch, 1 ≤ q.ranks → prepare q.image ≠ .ok batch := by
    intro batch hk hbatch
    rw [check_enough hk, hbatch] at hrefused
    cases hrefused
  constructor
  case loader => rfl
  case failed => exact fun _ _ => rfl
  case tooFew =>
    intro hk
    rw [checkRanks_int, if_pos hk] at hrefused
    cases hrefused
    exact ⟨rfl, _, rfl, rfl⟩
  case succeeded => exact nofun
  case kept => exact fun batch _ hk hbatch => absurd hbatch (hnone batch hk)
  case read => exact fun batch hk hbatch => absurd hbatch (hnone batch hk)
  case miscounted => exact fun batch _ _ _ hk hbatch => absurd hbatch (hnone batch hk)

/-- A query for which there are labels. -/
theorem effect_kept {batch : Reals} {names : List String} (hk : 1 ≤ q.ranks)
    (hbatch : prepare q.image = .ok batch) (hlabels : c.labels = some names)
    (hlen : names.length = (q.model batch).length) :
    q.Effect c h (c.answerWith (q.model batch) q.ranks (.ok names)).1 c h := by
  have hnot : ∀ batch', prepare q.image = .ok batch' →
      ¬∀ names, c.labels = some names → names.length ≠ (q.model batch').length := by
    intro batch' hbatch' hnot
    obtain rfl := prepare_unique hbatch hbatch'
    exact hnot names hlabels hlen
  have hanswer : (c.answerWith (q.model batch) q.ranks (.ok names)).1
      = .ok ((ranking (scored names (q.model batch))).take q.ranks.toNat) := rank_eq hlen hk
  rw [hanswer]
  constructor
  case loader => rfl
  case failed => exact nofun
  case tooFew => exact fun hk' => absurd hk' (by omega)
  case succeeded =>
    rintro _ ⟨⟩
    exact ⟨hk, batch, names, hbatch, hlen, hlabels, length_scored hlen, areBest_take _ _⟩
  case kept =>
    intro batch' names' _ hbatch' hlabels' _
    obtain rfl := prepare_unique hbatch hbatch'
    obtain rfl : names = names' := Option.some.inj (hlabels.symm.trans hlabels')
    refine ⟨hlabels, rfl, ⟨_, rfl⟩, fun l g => ?_⟩
    -- the loader and the machine are looked at only where labels are read
    have hl : (⟨l, some names⟩ : Classifier).labels = some names := rfl
    have hrun : ((⟨l, some names⟩ : Classifier).labelsFor (q.model batch').length).run g
        = (.ok names, g) := by
      rw [labelsFor_kept hl hlen]
      rfl
    rw [run_predict_accepted hk hbatch hrun, answerWith, rank_eq hlen hk]
  case read => exact fun batch' _ hbatch' hread => absurd hread (hnot batch' hbatch')
  case miscounted => exact fun batch' _ _ _ _ hbatch' hread => absurd hread (hnot batch' hbatch')

/-- A query for which labels are read. -/
theorem effect_read {batch : Reals} {labels : Outcome (List String)} {h' : Host} (hk : 1 ≤ q.ranks)
    (hbatch : prepare q.image = .ok batch)
    (hnot : ∀ names, c.labels = some names → names.length ≠ (q.model batch).length)
    (hread : c.Reading (q.model batch).length h labels h') :
    q.Effect c h (c.answerWith (q.model batch) q.ranks labels).1
      (c.answerWith (q.model batch) q.ranks labels).2 h' := by
  have hanswer : ∀ names, labels = .ok names →
      (c.answerWith (q.model batch) q.ranks labels).1
        = .ok ((ranking (scored names (q.model batch))).take q.ranks.toNat) := by
    rintro names rfl
    exact rank_eq hread.length hk
  constructor
  case loader => cases labels <;> rfl
  case failed =>
    intro e he
    cases labels with
    | error _ => rfl
    | ok names =>
        rw [hanswer names rfl] at he
        cases he
  case tooFew => exact fun hk' => absurd hk' (by omega)
  case succeeded =>
    intro best hbest
    cases labels with
    | error _ => cases hbest
    | ok names =>
        rw [hanswer names rfl] at hbest
        obtain rfl := Except.ok.inj hbest
        exact ⟨hk, batch, names, hbatch, hread.length, rfl, length_scored hread.length,
          areBest_take _ _⟩
  -- labels with as many names as there are outputs would not be read again
  case kept =>
    intro batch' names' _ hbatch' hlabels' hlen'
    obtain rfl := prepare_unique hbatch hbatch'
    exact absurd hlen' (hnot names' hlabels')
  case read =>
    intro batch' _ hbatch' _
    obtain rfl := prepare_unique hbatch hbatch'
    refine ⟨labels, hread, ?_, ?_⟩
    · rintro names rfl
      exact ⟨rfl, _, hanswer names rfl⟩
    · rintro e rfl
      rfl
  case miscounted =>
    intro batch' path text g _ hbatch' _ hopen htext hcount
    obtain rfl := prepare_unique hbatch hbatch'
    rw [hread.miscount hopen htext hcount]
    exact ⟨_, rfl, rfl⟩

/-- **What a query does.** -/
theorem effect (q : Query) (c : Classifier) (h : Host) :
    ∃ o c' h', (c.predict q.model q.image (.int q.ranks)).run h = (.ok (o, c'), h') ∧
      q.Effect c h o c' h' := by
  cases hready : (checkRanks (.int q.ranks) >>= fun _ => prepare q.image) with
  | error e => exact ⟨_, _, _, run_predict_refused hready, effect_refused hready⟩
  | ok batch =>
      have hk : 1 ≤ q.ranks := by
        by_contra hfew
        rw [checkRanks_int, if_pos (by omega)] at hready
        cases hready
      rw [check_enough hk] at hready
      by_cases hkept : ∃ names, c.labels = some names ∧ names.length = (q.model batch).length
      · obtain ⟨names, hlabels, hlen⟩ := hkept
        have hrun : (c.labelsFor (q.model batch).length).run h = (.ok names, h) := by
          rw [labelsFor_kept hlabels hlen]
          rfl
        have hc : c.answerWith (q.model batch) q.ranks (.ok names)
            = ((c.answerWith (q.model batch) q.ranks (.ok names)).1, c) := by
          rw [answerWith, ← hlabels]
        have hpredict := run_predict_accepted hk hready hrun
        rw [hc] at hpredict
        exact ⟨_, c, h, hpredict, effect_kept hk hready hlabels hlen⟩
      · have hnot : ∀ names, c.labels = some names → names.length ≠ (q.model batch).length :=
          fun names hlabels hlen => hkept ⟨names, hlabels, hlen⟩
        have hread := reading_readLabels c (q.model batch).length h
        rcases hrun : (c.readLabels (q.model batch).length).run h with ⟨labels, h'⟩
        rw [hrun] at hread
        rw [← labelsFor_read hnot] at hrun
        exact ⟨(c.answerWith (q.model batch) q.ranks labels).1,
          (c.answerWith (q.model batch) q.ranks labels).2, h',
          run_predict_accepted hk hready hrun, effect_read hk hready hnot hread⟩

end Query

/-! ## Runs of queries -/

namespace Classifier

open Outcome

/-- The labels of the last query that succeeded, or else those at the start. -/
def lastLabels (start : Option (List String)) (log : List Classified) : Option (List String) :=
  log.foldl (fun labels a => if a.outcome.isOk then a.classifier.labels else labels) start

/-- What a query leaves counts for later if it succeeded. -/
theorem lastLabels_cons {q : Query} {c c' : Classifier} {h h' : Host} {o : Outcome (List Scored)}
    (heffect : q.Effect c h o c' h') (log : List Classified) :
    lastLabels c.labels (⟨q, o, c'⟩ :: log) = lastLabels c'.labels log := by
  cases o with
  | ok best => rfl
  | error e =>
      rw [heffect.failed e rfl]
      rfl

/-- **Labels and outputs stay together.** After any run of queries, with other models, other images
and another machine each time, a classifier has the labels of the last query that succeeded, or
those at the start; and the next query has the effect that it should have. -/
theorem answers_labelled (c : Classifier) (qs : List Query) (h : Host) :
    ∃ log now h', (c.answers qs).run h = (.ok (log, now), h') ∧ log.map Classified.query = qs ∧
      now.loader = c.loader ∧ now.labels = lastLabels c.labels log ∧
      ∀ q : Query, ∃ o c' h'', (q.ask now).run h' = (.ok (o, c'), h'') ∧
        q.Effect now (q.meanwhile h') o c' h'' := by
  -- what the first query leaves is where the others start
  induction qs generalizing c h with
  | nil => exact ⟨[], c, h, rfl, rfl, rfl, rfl, fun q => q.effect c (q.meanwhile h)⟩
  | cons q qs ih =>
      obtain ⟨o, c', h', hask, heffect⟩ := q.effect c (q.meanwhile h)
      have hask : (q.ask c).run h = (.ok (o, c'), h') := hask
      obtain ⟨log, now, h'', hrun, hqueries, hloader, hlabels, hnext⟩ := ih c' h'
      refine ⟨⟨q, o, c'⟩ :: log, now, h'', ?_, ?_, hloader.trans heffect.loader, ?_, hnext⟩
      · rw [answers, run_bind_ok hask]
        dsimp only
        rw [run_bind_ok hrun]
        rfl
      · rw [List.map_cons, hqueries]
      · rw [lastLabels_cons heffect]
        exact hlabels

end Classifier

end Perception
