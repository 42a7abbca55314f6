import Perception.Proofs.Web.Site

set_option autoImplicit false

/-! # Downloads are all or nothing

A download either puts the whole body in the place of its output or leaves all files as they were
(`Download.download_allOrNothing`), whatever the web answers and wherever the transfer ends.
Directories above the output are all that it may add besides.

Each phase has its invariant (`Download.Inv`): what the tree is like compared with the one in which
the parent directories were made, what the draft holds, and which replies were closed. A step leads
from one invariant to the next (`Download.inv_step`), and a run of enough steps to the last one
(`Download.inv_run`).
-/

namespace Perception

/-! ## Blocks -/

/-- The blocks of a body, one after the other, are the body. -/
theorem flatten_blocksOf {size : Nat} (hsize : 0 < size) (fuel : Nat) (bs : Bytes)
    (hfuel : bs.length ≤ fuel) : (blocksOf size fuel bs).flatten = bs := by
  induction fuel generalizing bs with
  | zero =>
      rw [List.length_eq_zero_iff.mp (Nat.le_zero.mp hfuel)]
      rfl
  | succ fuel ih =>
      cases bs with
      | nil => rfl
      | cons b bs =>
          rw [blocksOf, List.flatten_cons, ih _ ?_, List.take_append_drop]
          · rw [List.length_drop]
            simp only [List.length_cons] at hfuel ⊢
            omega
          · exact List.cons_ne_nil b bs

theorem flatten_blocks {size : Nat} (hsize : 0 < size) (bs : Bytes) :
    (blocks size bs).flatten = bs :=
  flatten_blocksOf hsize _ bs (Nat.le_refl _)

namespace Host

/-! ## Operations of the host -/

theorem closed_closeLast {h : Host} {closed : List Bool} (hc : h.closed = closed ++ [false]) :
    h.closeLast.closed = closed ++ [true] := by
  show h.closed.dropLast ++ (if h.closed.isEmpty then [] else [true]) = _
  rw [hc, List.dropLast_concat]
  simp

end Host

namespace Download

open FileTree

variable {job : Job} {h₀ h : Host} {bar : ProgressBar} {r : Reply}

/-! ## What is sent -/

/-- Not more is written than arrives. -/
theorem length_transfer_le (bar : Nat → Option Failure) (ending : Option Failure) (shown : Nat)
    (bs : List Bytes) : (transfer bar ending shown bs).1.length ≤ bs.length := by
  induction bs generalizing shown with
  | nil => exact Nat.le_refl _
  | cons b bs ih =>
      unfold transfer
      cases bar (shown + b.length) with
      | some f => exact Nat.zero_le _
      | none => exact Nat.succ_le_succ (ih _)

/-- What does not fail is written in full. -/
theorem transfer_of_none {bar : Nat → Option Failure} {ending : Option Failure} {shown : Nat}
    {bs : List Bytes} (h : (transfer bar ending shown bs).2 = none) :
    ending = none ∧ (transfer bar ending shown bs).1 = bs := by
  induction bs generalizing shown with
  | nil => exact ⟨h, rfl⟩
  | cons b bs ih =>
      unfold transfer at h ⊢
      cases hbar : bar (shown + b.length) with
      | some f =>
          rw [hbar] at h
          cases h
      | none =>
          rw [hbar] at h
          obtain ⟨hending, hwritten⟩ := ih h
          exact ⟨hending, congrArg (b :: ·) hwritten⟩

/-- Where the bar never fails, a transfer ends as the reading does. -/
theorem transfer_of_shown {bar : Nat → Option Failure} (hbar : ∀ n, bar n = none)
    (ending : Option Failure) (shown : Nat) (bs : List Bytes) :
    (transfer bar ending shown bs).2 = ending := by
  induction bs generalizing shown with
  | nil => rfl
  | cons b bs ih =>
      unfold transfer
      rw [hbar]
      exact ih _

/-- **A transfer that does not fail** has written the whole body. -/
theorem whole_of_sending (h : (sending job bar r).2 = none) :
    r.breaks = false ∧ (sending job bar r).1.flatten = r.body := by
  obtain ⟨hending, hwritten⟩ := transfer_of_none h
  have hbreaks : r.breaksAfter = none := Option.map_eq_none_iff.mp hending
  refine ⟨by rw [Reply.breaks, hbreaks]; rfl, ?_⟩
  show (transfer _ _ _ _).1.flatten = r.body
  rw [hwritten, flatten_blocks (by decide), Reply.arriving, hbreaks]

/-! ## What a download comes to -/

/-- What a download comes to, given the answer and whether the draft could be opened. -/
def verdict (job : Job) (bar : ProgressBar) (opened : Except SystemCause Unit) :
    Answer → Outcome Path
  | .failure m => .error (m.ofDownload job.url)
  | .reply r =>
      match refusal? job bar r with
      | some f => .error f
      | none =>
          match opened with
          | .error e => .error (.system e job.output.toString)
          | .ok () =>
              match (sending job bar r).2 with
              | some f => .error f
              | none => .ok job.output

/-- A draft is not opened for its name only. -/
def Openable (job : Job) (opened : Except SystemCause Unit) : Prop :=
  ∀ e, opened = .error e → e = .nameTooLong ∨ job.output.name = ""

/-- The replies that came are closed. -/
def closings : Answer → List Bool
  | .reply _ => [true]
  | .failure _ => []

abbrev Accepted (job : Job) (bar : ProgressBar) (r : Reply) : Prop := refusal? job bar r = none

/-- The output of a download whose reply is taken has a name that files can have. -/
theorem Accepted.hasNul_eq_false (hr : Accepted job bar r) : job.output.hasNul = false := by
  unfold Accepted refusal? at hr
  grind

theorem verdict_refused {f : Failure} (hr : refusal? job bar r = some f)
    (opened : Except SystemCause Unit) : verdict job bar opened (.reply r) = .error f := by
  simp only [verdict, hr]

theorem verdict_accepted (hr : Accepted job bar r) (opened : Except SystemCause Unit) :
    verdict job bar opened (.reply r)
      = match opened with
        | .error e => .error (.system e job.output.toString)
        | .ok () =>
            match (sending job bar r).2 with
            | some f => .error f
            | none => .ok job.output := by
  simp only [verdict, hr]

/-! ## The invariant of each phase -/

/-- The address was asked for. `came` says of the reply, if one came, whether it is closed. -/
structure Asked (job : Job) (h₀ h : Host) (came : List Bool) : Prop where
  here : h.here = h₀.here
  requests : h.requests = h₀.requests ++ [⟨job.url, true, job.timeout⟩]
  closed : h.closed = h₀.closed ++ came

/-- The draft holds the bytes that were sent so far. -/
structure Writing (s : Site job h₀) (h : Host) (r : Reply) (sent : Bytes) : Prop where
  web : h₀.web job.url = .reply r
  accepted : Accepted job h₀.bar r
  fits : job.output.name.utf8ByteSize ≤ maxNameBytes
  clean : s.Clean h.tree
  draft : h.tree.get? s.draft = some (.file (.bytes sent))

/-- The result is settled, and `t` is the tree that is left without the temporary directory: the one
that was made, or that with the body in the place of the output. -/
structure Settled (s : Site job h₀) (h : Host) (t : FileTree) (result : Outcome Path) : Prop where
  asked : Asked job h₀ h (closings (h₀.web job.url))
  verdict : ∃ opened, Openable job opened ∧
    result = verdict job h₀.bar opened (h₀.web job.url)
  tree : (∃ e, result = .error e ∧ ∀ l, t.get? l = s.made.get? l) ∨
    ∃ r, result = .ok job.output ∧ h₀.web job.url = .reply r ∧ r.breaks = false ∧
      job.output.name.utf8ByteSize ≤ maxNameBytes ∧
      ∀ l, t.get? l = if l = s.target then some (.file (.bytes r.body)) else s.made.get? l

def Inv (job : Job) (h₀ h : Host) : Phase → Prop
  | .makeParents => h = h₀
  | .makeTemp => ∃ s : Site job h₀, h = { h₀ with tree := s.made }
  | .request temp => ∃ s : Site job h₀, temp = s.temp ∧ h = { h₀ with tree := s.staged }
  | .write temp bs failing => ∃ (s : Site job h₀) (r : Reply) (sent : Bytes), temp = s.temp ∧
      failing = (sending job h₀.bar r).2 ∧
      sent ++ bs.flatten = (sending job h₀.bar r).1.flatten ∧ Asked job h₀ h [false] ∧
      Writing s h r sent
  | .move temp => ∃ (s : Site job h₀) (r : Reply), temp = s.temp ∧
      (sending job h₀.bar r).2 = none ∧ Asked job h₀ h [true] ∧ Writing s h r r.body
  | .removeTemp temp result => ∃ s : Site job h₀, temp = s.temp ∧
      Settled s h (h.tree.eraseAll s.temp) result
  | .done result =>
      (∃ s : Site job h₀, Settled s h h.tree result) ∨
        ∃ e, result = .error e ∧ (Host.makeDirectories job.output.parent).run h₀ = (.error e, h)

/-! ## Steps -/

theorem inv_makeParents (hwf : h₀.WellFormed) :
    Inv job h₀ (step job h₀ .makeParents).1 (step job h₀ .makeParents).2 := by
  unfold step
  rcases site_cases job hwf with ⟨e, h, hrun⟩ | ⟨s, hrun⟩
  · rw [hrun]
    exact Or.inr ⟨e, rfl, hrun⟩
  · rw [hrun]
    exact ⟨s, rfl⟩

theorem inv_makeTemp (s : Site job h₀) (hh : h = { h₀ with tree := s.made }) :
    Inv job h₀ (step job h .makeTemp).1 (step job h .makeTemp).2 := by
  subst hh
  have hloc : s.made.locate h₀.here job.output.parent = .ok s.parent := s.located
  simp only [step, hloc]
  exact ⟨s, rfl, rfl⟩

theorem Asked.closeLast (h' : Asked job h₀ h [false]) : Asked job h₀ h.closeLast [true] :=
  ⟨h'.here, h'.requests, Host.closed_closeLast h'.closed⟩

/-- Every draft could be opened, for what is decided before. -/
theorem openable_ok (job : Job) : Openable job (.ok ()) := fun _ h => nomatch h

/-- A failure is settled if nothing was written outside the temporary directory. -/
theorem inv_finish {s : Site job h₀} {e : Failure} {opened : Except SystemCause Unit}
    (hasked : Asked job h₀ h (closings (h₀.web job.url))) (hopened : Openable job opened)
    (hverdict : verdict job h₀.bar opened (h₀.web job.url) = .error e) (hclean : s.Clean h.tree) :
    Inv job h₀ (finish h s.temp (.error e)).1 (finish h s.temp (.error e)).2 :=
  ⟨s, rfl, hasked, ⟨opened, hopened, hverdict.symm⟩, Or.inl ⟨e, rfl, hclean.removed⟩⟩

/-! ### The request -/

def asking (job : Job) (h : Host) : Host :=
  { h with
    requests := h.requests ++ [⟨job.url, true, job.timeout⟩]
    closed := h.closed ++ (match h.web job.url with
      | .reply _ => [false]
      | .failure _ => [])
    journal := h.journal ++ [⟨.info, source, s!"Downloading {job.url} to {job.output}"⟩] }

def onReply (job : Job) (h : Host) (temp : Location) (r : Reply) : Host × Phase :=
  match refusal? job h.bar r with
  | some f => finish h.closeLast temp (.error f)
  | none =>
      match openTemp h temp job with
      | .error e => finish h.closeLast temp (.error (.system e job.output.toString))
      | .ok h' => (h', .write temp (sending job h'.bar r).1 (sending job h'.bar r).2)

theorem step_request (job : Job) (h : Host) (temp : Location) :
    step job h (.request temp)
      = match h.web job.url with
        | .failure m => finish (asking job h) temp (.error (m.ofDownload job.url))
        | .reply r => onReply job (asking job h) temp r := by
  unfold step
  dsimp only
  rw [Host.run_ask]
  unfold asking
  cases h.web job.url with
  | failure m => rfl
  | reply r => rfl

/-- What comes of a reply: it is refused, or the draft cannot be opened, or it is written. -/
theorem onReply_cases (job : Job) (h : Host) (temp : Location) (r : Reply) :
    (∃ f, refusal? job h.bar r = some f ∧
      onReply job h temp r = finish h.closeLast temp (.error f)) ∨
    Accepted job h.bar r ∧
      ((∃ e, openTemp h temp job = .error e ∧
          onReply job h temp r
            = finish h.closeLast temp (.error (.system e job.output.toString))) ∨
        ∃ t, openTemp h temp job = .ok { h with tree := t } ∧
          onReply job h temp r = ({ h with tree := t },
            .write temp (sending job h.bar r).1 (sending job h.bar r).2)) := by
  unfold onReply
  cases hrefusal : refusal? job h.bar r with
  | some f => exact Or.inl ⟨f, rfl, rfl⟩
  | none =>
      refine Or.inr ⟨hrefusal, ?_⟩
      dsimp only
      unfold openTemp
      split
      · exact Or.inl ⟨_, rfl, rfl⟩
      · cases h.tree.write h.here (tempPath temp job) (.bytes []) with
        | error e => exact Or.inl ⟨e, rfl, rfl⟩
        | ok t => exact Or.inr ⟨t, rfl, rfl⟩

/-- A draft that was opened is empty, and the body is to be written. -/
theorem inv_opened (s : Site job h₀) (hweb : h₀.web job.url = .reply r)
    (hasked : Asked job h₀ h [false]) (haccepted : Accepted job h₀.bar r)
    (hfits : job.output.name.utf8ByteSize ≤ maxNameBytes) :
    Inv job h₀ { h with tree := s.staged.put s.draft (.file (.bytes [])) }
      (.write s.temp (sending job h₀.bar r).1 (sending job h₀.bar r).2) :=
  ⟨s, r, [], rfl, rfl, rfl, ⟨hasked.here, hasked.requests, hasked.closed⟩, hweb, haccepted, hfits,
    s.clean_staged.put s.temp_below_draft _, get?_put_self _ s.draft_ne_nil _⟩

theorem inv_onReply (hout : ¬BlockedByDirectory h₀ job.output) (s : Site job h₀) {r : Reply}
    (hweb : h₀.web job.url = .reply r) (hbar : h.bar = h₀.bar) (hasked : Asked job h₀ h [false])
    (htree : h.tree = s.staged) :
    Inv job h₀ (onReply job h s.temp r).1 (onReply job h s.temp r).2 := by
  have hclean : s.Clean h.tree := by
    rw [htree]
    exact s.clean_staged
  have hclosed : Asked job h₀ h.closeLast (closings (h₀.web job.url)) := by
    rw [hweb]
    exact hasked.closeLast
  -- the reply is refused, or its file cannot be opened, or the transfer starts
  rcases onReply_cases job h s.temp r with
    ⟨f, hrefusal, heq⟩ | ⟨haccepted, ⟨e, hopen, heq⟩ | ⟨t, hopen, heq⟩⟩
  · rw [heq]
    refine inv_finish hclosed (openable_ok job) ?_ hclean
    rw [hweb, ← hbar]
    exact verdict_refused hrefusal _
  · rw [heq]
    have hopened : Openable job (.error e) := by
      rcases s.openTemp_cases hout htree with ⟨-, hopen'⟩ | ⟨e', he', hopen'⟩
      · cases hopen.symm.trans hopen'
      · cases hopen.symm.trans hopen'
        intro e'' he''
        cases he''
        exact he'
    refine inv_finish hclosed hopened ?_ hclean
    rw [hweb, ← hbar, verdict_accepted haccepted]
  · rcases s.openTemp_cases hout htree with ⟨hfits, hopen'⟩ | ⟨e', -, hopen'⟩
    · have ht : { h with tree := t } = { h with tree := s.staged.put s.draft (.file (.bytes [])) } :=
        Except.ok.inj (hopen.symm.trans hopen')
      have hopened := inv_opened s hweb hasked (hbar ▸ haccepted) hfits
      rw [← hbar] at hopened
      rw [heq, ht]
      exact hopened
    · cases hopen.symm.trans hopen'

theorem inv_request (hout : ¬BlockedByDirectory h₀ job.output) (s : Site job h₀)
    (hh : h = { h₀ with tree := s.staged }) :
    Inv job h₀ (step job h (.request s.temp)).1 (step job h (.request s.temp)).2 := by
  have hasks (came : List Bool) (hcame : (asking job h).closed = h₀.closed ++ came) :
      Asked job h₀ (asking job h) came := by
    subst hh
    exact ⟨rfl, rfl, hcame⟩
  have htree : (asking job h).tree = s.staged := by
    subst hh
    rfl
  have hsame : h.web = h₀.web ∧ h.closed = h₀.closed := by
    subst hh
    exact ⟨rfl, rfl⟩
  have hbar : (asking job h).bar = h₀.bar := by
    subst hh
    rfl
  rw [step_request, hsame.1]
  cases hweb : h₀.web job.url with
  | failure m =>
      have hclosed : (asking job h).closed = h₀.closed ++ [] := by
        simp only [asking, hsame.1, hsame.2, hweb]
      have hclean : s.Clean (asking job h).tree := by
        rw [htree]
        exact s.clean_staged
      refine inv_finish ?_ (openable_ok job) ?_ hclean
      · rw [hweb]
        exact hasks [] hclosed
      · rw [hweb]
        rfl
  | reply r =>
      have hclosed : (asking job h).closed = h₀.closed ++ [false] := by
        simp only [asking, hsame.1, hsame.2, hweb]
      exact inv_onReply hout s hweb hbar (hasks [false] hclosed) htree

/-! ### The transfer -/

theorem inv_write_block (s : Site job h₀) {r : Reply} {sent b : Bytes} {bs : List Bytes}
    {failing : Option Failure} (hfailing : failing = (sending job h₀.bar r).2)
    (hrest : sent ++ (b :: bs).flatten = (sending job h₀.bar r).1.flatten)
    (hasked : Asked job h₀ h [false]) (hw : Writing s h r sent) :
    Inv job h₀ (step job h (.write s.temp (b :: bs) failing)).1
      (step job h (.write s.temp (b :: bs) failing)).2 := by
  -- the draft gains the block that the rest of the body loses
  have hput := append_of_get? b hw.draft
  refine ⟨s, r, sent ++ b, rfl, hfailing, ?_, ⟨hasked.here, hasked.requests, hasked.closed⟩,
    hw.web, hw.accepted, hw.fits, ?_, ?_⟩
  · rw [List.append_assoc, ← List.flatten_cons]
    exact hrest
  · show s.Clean (append h.tree s.draft b)
    rw [hput]
    exact hw.clean.put s.temp_below_draft _
  · show (append h.tree s.draft b).get? s.draft = _
    rw [hput]
    exact get?_put_self _ s.draft_ne_nil _

/-- A transfer that fails. -/
theorem inv_write_failed (s : Site job h₀) {r : Reply} {sent : Bytes} {f : Failure}
    (hfails : (sending job h₀.bar r).2 = some f) (hasked : Asked job h₀ h [false])
    (hw : Writing s h r sent) :
    Inv job h₀ (step job h (.write s.temp [] (some f))).1
      (step job h (.write s.temp [] (some f))).2 := by
  refine inv_finish ?_ (openable_ok job) ?_ hw.clean
  · rw [hw.web]
    exact hasked.closeLast
  · rw [hw.web, verdict_accepted hw.accepted, hfails]

/-- A body that is complete. -/
theorem inv_write_complete (s : Site job h₀) {r : Reply} {sent : Bytes}
    (hends : (sending job h₀.bar r).2 = none)
    (hrest : sent ++ ([] : List Bytes).flatten = (sending job h₀.bar r).1.flatten)
    (hasked : Asked job h₀ h [false]) (hw : Writing s h r sent) :
    Inv job h₀ (step job h (.write s.temp [] none)).1 (step job h (.write s.temp [] none)).2 := by
  have hbody : sent = r.body := by
    rwa [List.flatten_nil, List.append_nil, (whole_of_sending hends).2] at hrest
  subst hbody
  exact ⟨s, r, rfl, hends, hasked.closeLast, hw.web, hw.accepted, hw.fits, hw.clean, hw.draft⟩

theorem inv_move (hout : ¬BlockedByDirectory h₀ job.output) (s : Site job h₀) {r : Reply}
    (hends : (sending job h₀.bar r).2 = none) (hasked : Asked job h₀ h [true])
    (hw : Writing s h r r.body) :
    Inv job h₀ (step job h (.move s.temp)).1 (step job h (.move s.temp)).2 := by
  unfold step
  dsimp only
  rw [s.moveInto_draft hout hw.fits hasked.here hw.clean hw.draft]
  refine ⟨s, rfl, ?_, ⟨.ok (), openable_ok job, ?_⟩,
    Or.inr ⟨r, rfl, hw.web, (whole_of_sending hends).1, hw.fits, s.get?_moved hw.clean _⟩⟩
  · rw [hw.web]
    exact ⟨hasked.here, hasked.requests, hasked.closed⟩
  · rw [hw.web, verdict_accepted hw.accepted, hends]

theorem inv_removeTemp (s : Site job h₀) {result : Outcome Path}
    (hs : Settled s h (h.tree.eraseAll s.temp) result) :
    Inv job h₀ (step job h (.removeTemp s.temp result)).1
      (step job h (.removeTemp s.temp result)).2 :=
  Or.inl ⟨s, ⟨hs.asked.here, hs.asked.requests, hs.asked.closed⟩, hs.verdict, hs.tree⟩

/-- **Each step leads from one invariant to the next.** -/
theorem inv_step (hwf : h₀.WellFormed) (hout : ¬BlockedByDirectory h₀ job.output) {phase : Phase}
    (hinv : Inv job h₀ h phase) : Inv job h₀ (step job h phase).1 (step job h phase).2 := by
  cases phase with
  | makeParents =>
      have hh : h = h₀ := hinv
      rw [hh]
      exact inv_makeParents hwf
  | makeTemp =>
      obtain ⟨s, hh⟩ := hinv
      exact inv_makeTemp s hh
  | request temp =>
      obtain ⟨s, rfl, hh⟩ := hinv
      exact inv_request hout s hh
  | write temp bs failing =>
      obtain ⟨s, r, sent, rfl, hfailing, hrest, hasked, hw⟩ := hinv
      cases bs with
      | cons b bs => exact inv_write_block s hfailing hrest hasked hw
      | nil =>
          cases failing with
          | some f => exact inv_write_failed s hfailing.symm hasked hw
          | none => exact inv_write_complete s hfailing.symm hrest hasked hw
  | move temp =>
      obtain ⟨s, r, rfl, hends, hasked, hw⟩ := hinv
      exact inv_move hout s hends hasked hw
  | removeTemp temp result =>
      obtain ⟨s, rfl, hs⟩ := hinv
      exact inv_removeTemp s hs
  | done result => exact hinv

/-! ## Runs -/

def arrivingBlocks (job : Job) (h : Host) : Nat :=
  match h.web job.url with
  | .reply r => (blocks blockSize r.arriving).length
  | .failure _ => 0

/-- How many steps a phase is from the end, at most. -/
def stepsLeft (job : Job) (h₀ : Host) : Phase → Nat
  | .makeParents => arrivingBlocks job h₀ + 6
  | .makeTemp => arrivingBlocks job h₀ + 5
  | .request _ => arrivingBlocks job h₀ + 4
  | .write _ bs _ => bs.length + 3
  | .move _ => 2
  | .removeTemp _ _ => 1
  | .done _ => 0

theorem stepsLeft_request (temp : Location) (hweb : h.web = h₀.web) :
    stepsLeft job h₀ (step job h (.request temp)).2 < stepsLeft job h₀ (.request temp) := by
  have hdone (h' : Host) (e : Outcome Path) :
      stepsLeft job h₀ (finish h' temp e).2 < stepsLeft job h₀ (.request temp) := by
    show 1 < arrivingBlocks job h₀ + 4
    omega
  rw [step_request, hweb]
  cases hanswer : h₀.web job.url with
  | failure m => exact hdone _ _
  | reply r =>
      have hblocks : arrivingBlocks job h₀ = (blocks blockSize r.arriving).length := by
        rw [arrivingBlocks, hanswer]
      dsimp only
      rcases onReply_cases job (asking job h) temp r with
        ⟨f, -, heq⟩ | ⟨-, ⟨e, -, heq⟩ | ⟨t, -, heq⟩⟩
      · rw [heq]
        exact hdone _ _
      · rw [heq]
        exact hdone _ _
      · rw [heq]
        have hless := length_transfer_le (h.bar (r.length?.getD 0))
          (r.breaksAfter.map fun b => b.2.ofDownload job.url) 0 (blocks blockSize r.arriving)
        show (sending job h.bar r).1.length + 3 < arrivingBlocks job h₀ + 4
        unfold sending
        omega

/-- Each step brings the end nearer, if the web is still as it was when the address is asked for. -/
theorem stepsLeft_step (phase : Phase) (hphase : ∀ result, phase ≠ .done result)
    (hweb : ∀ temp, phase = .request temp → h.web = h₀.web) :
    stepsLeft job h₀ (step job h phase).2 < stepsLeft job h₀ phase := by
  cases phase with
  | makeParents =>
      unfold step
      dsimp only
      split
      · show arrivingBlocks job h₀ + 5 < arrivingBlocks job h₀ + 6
        omega
      · show 0 < arrivingBlocks job h₀ + 6
        omega
  | makeTemp =>
      unfold step
      dsimp only
      split
      · show 0 < arrivingBlocks job h₀ + 5
        omega
      · show arrivingBlocks job h₀ + 4 < arrivingBlocks job h₀ + 5
        omega
  -- only the request looks at the web
  | request temp => exact stepsLeft_request temp (hweb temp rfl)
  | write temp bs failing =>
      cases bs with
      | cons b bs =>
          show bs.length + 3 < (b :: bs).length + 3
          rw [List.length_cons]
          omega
      | nil =>
          cases failing with
          | some f =>
              show 1 < 0 + 3
              omega
          | none =>
              show 2 < 0 + 3
              omega
  | move temp =>
      show 1 < 2
      omega
  | removeTemp temp result =>
      show 0 < 1
      omega
  | done result => exact absurd rfl (hphase result)

theorem run_succ {fuel : Nat} {phase : Phase} (hphase : ∀ result, phase ≠ .done result) :
    run job (fuel + 1) h phase = run job fuel (step job h phase).1 (step job h phase).2 := by
  cases phase with
  | done result => exact absurd rfl (hphase result)
  | _ => rfl

/-- **A run of enough steps ends**, and what each step keeps holds then. -/
theorem run_keeps {P : Host → Phase → Prop}
    (hstep : ∀ h phase, P h phase → P (step job h phase).1 (step job h phase).2)
    (hweb : ∀ h temp, P h (.request temp) → h.web = h₀.web) (fuel : Nat) {phase : Phase}
    (hP : P h phase) (hfuel : stepsLeft job h₀ phase ≤ fuel) :
    P (run job fuel h phase).1 (.done (run job fuel h phase).2) := by
  induction fuel generalizing h phase with
  | zero =>
      cases phase with
      | done result => exact hP
      | write temp bs failing => exact absurd hfuel (Nat.not_succ_le_zero _)
      | _ => exact absurd hfuel (Nat.not_succ_le_zero _)
  | succ fuel ih =>
      by_cases hdone : ∃ result, phase = .done result
      · obtain ⟨result, rfl⟩ := hdone
        exact hP
      · -- one step nearer to the end, with one step less to make
        have hphase : ∀ result, phase ≠ .done result := fun result h => hdone ⟨result, h⟩
        have hless : stepsLeft job h₀ (step job h phase).2 < stepsLeft job h₀ phase :=
          stepsLeft_step phase hphase fun temp heq => hweb h temp (heq ▸ hP)
        rw [run_succ hphase]
        exact ih (hstep h phase hP) (by omega)

theorem inv_run (hwf : h₀.WellFormed) (hout : ¬BlockedByDirectory h₀ job.output) (fuel : Nat)
    {phase : Phase} (hinv : Inv job h₀ h phase) (hfuel : stepsLeft job h₀ phase ≤ fuel) :
    Inv job h₀ (run job fuel h phase).1 (.done (run job fuel h phase).2) := by
  refine run_keeps (fun h phase => inv_step hwf hout) (fun h temp hrequest => ?_) fuel hinv hfuel
  obtain ⟨s, -, rfl⟩ := hrequest
  rfl

/-- A download makes enough steps. -/
theorem stepsLeft_makeParents (job : Job) (h : Host) :
    stepsLeft job h .makeParents ≤ stepsFor h.web job.url := by
  show arrivingBlocks job h + 6 ≤ stepsFor h.web job.url
  unfold stepsFor arrivingBlocks
  cases h.web job.url with
  | reply r =>
      show (blocks blockSize r.arriving).length + 6 ≤ (blocks blockSize r.arriving).length + 8
      omega
  | failure m =>
      show 0 + 6 ≤ 8
      omega

/-! ## All or nothing -/

/-- What asking for an address counts as having failed for: no reply, a status of failure, or a body
that broke off, if the bar shows all that came of it. -/
inductive RequestFails (job : Job) (bar : ProgressBar) : Answer → Prop
  | unreachable (text : String) : RequestFails job bar (.failure (.request text))
  | status {r : Reply} (text : String) (hfound : r.status ≠ 404)
      (herror : r.statusError? job.url = some text) : RequestFails job bar (.reply r)
  | broken {r : Reply} {n : Nat} {text : String} (hr : Accepted job bar r)
      (hbreaks : r.breaksAfter = some (n, .request text))
      (hshown : ∀ n, bar (r.length?.getD 0) n = none) (hname : job.output.name ≠ "") :
      RequestFails job bar (.reply r)

/-- What becomes of the request: it is made once, its reply is closed, and the result follows from
the answer. -/
structure Answered (job : Job) (h₀ h : Host) (result : Outcome Path) : Prop where
  requests : h.requests = h₀.requests ++ [⟨job.url, true, job.timeout⟩]
  closed : h.closed = h₀.closed ++ closings (h₀.web job.url)
  verdict : ∃ opened, Openable job opened ∧
    result = verdict job h₀.bar opened (h₀.web job.url)
  missing : ∀ r, h₀.web job.url = .reply r → r.status = 404 →
    ∃ f, result = .error f ∧ f.kind = .notFound
  failed : RequestFails job h₀.bar (h₀.web job.url) → ∃ f, result = .error f ∧ f.kind = .io
  /-- Any other mishap of the request surfaces as it is. -/
  other : ∀ f, h₀.web job.url = .failure (.other f) → result = .error f

structure AllOrNothing (job : Job) (h₀ h : Host) (result : Outcome Path) : Prop where
  /-- Where it succeeds the output holds the whole body. -/
  complete : ∀ p, result = .ok p → p = job.output ∧ ∃ r l, h₀.web job.url = .reply r ∧
    r.breaks = false ∧ h.tree.locate h₀.here job.output = .ok l ∧
    h.tree.get? l = some (.file (.bytes r.body))
  /-- Where it fails the output is as before. -/
  untouched : ∀ e, result = .error e → ∀ l, h.tree.locate h₀.here job.output = .ok l →
    h.tree.get? l = h₀.tree.get? l
  /-- Whatever else was there stays. -/
  kept : ∀ l e, h.tree.locate h₀.here job.output ≠ .ok l → h₀.tree.get? l = some e →
    h.tree.get? l = some e
  /-- Whatever else is there now is a directory above the output. -/
  added : ∀ l e, h.tree.locate h₀.here job.output ≠ .ok l → h.tree.get? l = some e →
    h₀.tree.get? l = some e ∨ (e = .directory ∧ Above h.tree h₀.here job.output.parent l)
  /-- The machine stays in order. -/
  wellFormed : h.WellFormed
  /-- The request is made unless the directories above the output cannot be. -/
  answered : (∃ e, result = .error e ∧ h.requests = h₀.requests ∧ h.closed = h₀.closed ∧
    (Host.makeDirectories job.output.parent).run h₀ = (.error e, h)) ∨ Answered job h₀ h result

theorem kind_of_requestFails {opened : Except SystemCause Unit} {a : Answer}
    (ho : Openable job opened) (ha : RequestFails job bar a) :
    ∃ f, verdict job bar opened a = .error f ∧ f.kind = .io := by
  cases ha with
  | unreachable text => exact ⟨_, rfl, rfl⟩
  | @status r text hfound herror =>
      have hrefusal : refusal? job bar r = some (.downloadFailed job.url text) := by
        rw [refusal?, if_neg hfound, herror]
      exact ⟨_, verdict_refused hrefusal _, rfl⟩
  | @broken r n text hr hbreaks hshown hname =>
      have hfails : (sending job bar r).2 = some (.downloadFailed job.url text) := by
        rw [sending, transfer_of_shown hshown, hbreaks]
        rfl
      rw [verdict_accepted hr]
      cases opened with
      | ok _ =>
          rw [hfails]
          exact ⟨_, rfl, rfl⟩
      | error e =>
          rcases ho e rfl with rfl | hempty
          · exact ⟨_, rfl, rfl⟩
          · exact absurd hempty hname

theorem answered_of_settled {s : Site job h₀} {t : FileTree} {result : Outcome Path}
    (hs : Settled s h t result) : Answered job h₀ h result := by
  obtain ⟨opened, hopened, hverdict⟩ := hs.verdict
  refine ⟨hs.asked.requests, hs.asked.closed, hs.verdict, fun r hr h404 => ?_, fun hfails => ?_,
    fun f hf => ?_⟩
  · have hrefusal : refusal? job h₀.bar r = some (.remoteMissing job.url) := if_pos h404
    rw [hverdict, hr, verdict_refused hrefusal]
    exact ⟨_, rfl, rfl⟩
  · rw [hverdict]
    exact kind_of_requestFails hopened hfails
  · rw [hverdict, hf]
    rfl

theorem allOrNothing_of_error (hwf : h₀.WellFormed) {result : Outcome Path} {e : Failure}
    (hresult : result = .error e) (hhere : h.here = h₀.here)
    (hgrown : Grown h₀.tree h.tree (Above h.tree h₀.here job.output.parent))
    (hnot : ¬h.tree.LeadsToDirectory h₀.here job.output)
    (hanswered : (∃ e, result = .error e ∧ h.requests = h₀.requests ∧ h.closed = h₀.closed ∧
      (Host.makeDirectories job.output.parent).run h₀ = (.error e, h)) ∨ Answered job h₀ h result) :
    AllOrNothing job h₀ h result := by
  refine ⟨fun p hp => ?_, fun _ _ l hl => hgrown.get?_eq hnot hl, fun l e _ => hgrown.kept l e,
    fun l e _ => hgrown.added l e, ⟨hgrown.wellFormed hwf.tree, ?_, ?_⟩, hanswered⟩
  · rw [hresult] at hp
    cases hp
  · rw [hhere]
    exact hgrown.kept _ _ hwf.here
  · rw [hhere]
    exact hwf.noDots

/-- The directories above the output cannot be made. -/
theorem allOrNothing_of_refused (hwf : h₀.WellFormed)
    (hout : ¬BlockedByDirectory h₀ job.output) {e : Failure}
    (hrun : (Host.makeDirectories job.output.parent).run h₀ = (.error e, h)) :
    AllOrNothing job h₀ h (.error e) := by
  have hgrown := Host.grown_run_makeDirectories h₀ job.output.parent
  have hsame := Host.frame_run_makeDirectories h₀ job.output.parent
  rw [BlockedByDirectory, hrun] at hout
  rw [hrun] at hgrown hsame
  obtain ⟨hrequests, hclosed, hhere⟩ := hsame
  exact allOrNothing_of_error hwf rfl hhere hgrown hout (Or.inl ⟨e, rfl, hrequests, hclosed, hrun⟩)

theorem allOrNothing_of_settled (hwf : h₀.WellFormed)
    (hout : ¬BlockedByDirectory h₀ job.output) (s : Site job h₀) {result : Outcome Path}
    (hs : Settled s h h.tree result) : AllOrNothing job h₀ h result := by
  have hanswered := answered_of_settled hs
  rcases hs.tree with ⟨e, hresult, htree⟩ | ⟨r, hresult, hweb, hbreaks, hfits, htree⟩
  · -- nothing differs from the tree that was made, so paths lead where they led there
    have hup (l : Location) (hl : s.made.get? l = some .directory) :
        h.tree.get? l = some .directory := by
      rw [htree]
      exact hl
    have hdown (l : Location) (hl : h.tree.get? l = some .directory) :
        s.made.get? l = some .directory := by
      rw [← htree]
      exact hl
    refine allOrNothing_of_error hwf hresult hs.asked.here
      ⟨fun l e hl => ?_, fun l e hl => ?_, fun hwf => ?_⟩ ?_ (Or.inr hanswered)
    · rw [htree]
      exact s.grown.kept l e hl
    · rw [htree] at hl
      exact (s.grown.added l e hl).imp_right fun ⟨he, habove⟩ => ⟨he, habove.mono hup⟩
    · intro l e hl
      rw [htree] at hl ⊢
      exact s.wellFormed l e hl
    · rintro ⟨l, hl, hdir⟩
      exact hout (s.blocked_of_made ⟨l, locate_mono hdown hl, hdown l hdir⟩)
  · -- only the place of the output differs; no path leads through it, since it is no directory
    have htarget := s.target_not_directory hout hfits
    have hup (l : Location) (hl : s.made.get? l = some .directory) :
        h.tree.get? l = some .directory := by
      have hne : l ≠ s.target := by
        rintro rfl
        exact htarget hl
      rw [htree, if_neg hne]
      exact hl
    have hlocated : h.tree.locate h₀.here job.output = .ok s.target :=
      s.locate_output hout hfits hup
    have hother {l : Location} (hl : h.tree.locate h₀.here job.output ≠ .ok l) :
        h.tree.get? l = s.made.get? l := by
      have hne : l ≠ s.target := by
        rintro rfl
        exact hl hlocated
      rw [htree, if_neg hne]
    -- one goal for each part, in the order of the fields
    refine ⟨fun p hp => ?_, fun e he => ?_, fun l e hl hbefore => ?_, fun l e hl hafter => ?_,
      ⟨s.wellFormed_moved htarget htree, ?_, ?_⟩, Or.inr hanswered⟩
    · rw [hresult] at hp
      cases hp
      refine ⟨rfl, r, s.target, hweb, hbreaks, hlocated, ?_⟩
      rw [htree, if_pos rfl]
    · rw [hresult] at he
      cases he
    · rw [hother hl]
      exact s.grown.kept l e hbefore
    · rw [hother hl] at hafter
      exact (s.grown.added l e hafter).imp_right fun ⟨he, habove⟩ => ⟨he, habove.mono hup⟩
    · rw [hs.asked.here]
      exact hup _ (s.grown.kept _ _ hwf.here)
    · rw [hs.asked.here]
      exact hwf.noDots

/-- **Downloads are all or nothing.** If the output leads to no directory, nor to one made on the
way to it where two dots occur, a download puts the whole body there or leaves what is there; all
other entries stay, only directories above the output are added, and a reply that came is closed. -/
theorem download_allOrNothing {h : Host} (hwf : h.WellFormed) (url : String) (output : Path)
    (timeout : Datum) (hnot : ¬h.tree.LeadsToDirectory h.here output)
    (hdots : ".." ∈ output.names → ¬BlockedByDirectory h output) :
    AllOrNothing ⟨url, output, timeout⟩ h (download url output timeout h).2
      (download url output timeout h).1 := by
  let job : Job := ⟨url, output, timeout⟩
  have hout : ¬BlockedByDirectory h job.output := by
    by_cases hmem : ".." ∈ output.names
    · exact hdots hmem
    · exact not_blocked_of_noDots hwf hmem hnot
  have hstart : Inv job h h .makeParents := rfl
  have hinv := inv_run hwf hout (stepsFor h.web url) hstart (stepsLeft_makeParents job h)
  have hdownload : download url output timeout h
      = ((run job (stepsFor h.web url) h .makeParents).2,
        (run job (stepsFor h.web url) h .makeParents).1) := rfl
  rw [hdownload]
  generalize run job (stepsFor h.web url) h .makeParents = final at hinv ⊢
  rcases hinv with ⟨s, hs⟩ | ⟨e, he, hrun⟩
  · exact allOrNothing_of_settled hwf hout s hs
  · rw [he]
    exact allOrNothing_of_refused hwf hout hrun

/-- A machine with one file, and a web that answers everything with two bytes. -/
def stockedHost : Host :=
  { Host.offline ⟨[(["work"], .directory), (["work", "notes"], .file (.bytes [7]))]⟩ with
    here := ["work"]
    web := fun _ => .reply ⟨200, "OK", [], [104, 105], none⟩ }

theorem stockedHost_wellFormed : stockedHost.WellFormed :=
  ⟨wellFormed_of_entries (by decide), by rfl, by decide⟩

theorem download_allOrNothing_stocked :
    stockedHost.WellFormed ∧
      ¬stockedHost.tree.LeadsToDirectory stockedHost.here ⟨.relative, ["..", "models", "net"]⟩ ∧
      ¬BlockedByDirectory stockedHost ⟨.relative, ["..", "models", "net"]⟩ ∧
      AllOrNothing ⟨"https://example.com/net", ⟨.relative, ["..", "models", "net"]⟩, .int 30⟩
        stockedHost
        (download "https://example.com/net" ⟨.relative, ["..", "models", "net"]⟩ (.int 30)
          stockedHost).2
        (download "https://example.com/net" ⟨.relative, ["..", "models", "net"]⟩ (.int 30)
          stockedHost).1 := by
  have hnot : ¬stockedHost.tree.LeadsToDirectory stockedHost.here
      ⟨.relative, ["..", "models", "net"]⟩ := by
    rintro ⟨l, hl, -⟩
    have hmissing : Except.error .missing = (Except.ok l : Except SystemCause Location) := hl
    cases hmissing
  have hout : ¬BlockedByDirectory stockedHost ⟨.relative, ["..", "models", "net"]⟩ := by
    rintro ⟨l, hl, hdir⟩
    have hplace : .ok ["models", "net"] = (Except.ok l : Except SystemCause Location) := hl
    cases hplace
    cases hdir
  exact ⟨stockedHost_wellFormed, hnot, hout,
    download_allOrNothing stockedHost_wellFormed _ _ _ hnot fun _ => hout⟩

/-- A path that leads to a directory as soon as its parent directories are made. -/
def crossing : Path := ⟨.relative, ["x", "..", "x"]⟩

/-- That the output leads to no directory before is not enough: making the directories above it may
make one of it. The download succeeds then, and the body is in that directory. -/
theorem download_crossing :
    stockedHost.WellFormed ∧ ¬stockedHost.tree.LeadsToDirectory stockedHost.here crossing ∧
      (download "https://example.com/x" crossing (.int 30) stockedHost).1 = .ok crossing ∧
      (download "https://example.com/x" crossing (.int 30) stockedHost).2.tree.LeadsToDirectory
        stockedHost.here crossing ∧
      ∀ c, (download "https://example.com/x" crossing (.int 30) stockedHost).2.tree.read
        stockedHost.here crossing ≠ .ok c := by
  refine ⟨stockedHost_wellFormed, ?_, rfl, ⟨["work", "x"], rfl, rfl⟩, fun c hc => ?_⟩
  · rintro ⟨l, hl, -⟩
    have hmissing : stockedHost.tree.locate stockedHost.here crossing = .error .missing := rfl
    rw [hmissing] at hl
    cases hl
  · have hdirectory : (download "https://example.com/x" crossing (.int 30) stockedHost).2.tree.read
        stockedHost.here crossing = .error .isDirectory := rfl
    rw [hdirectory] at hc
    cases hc

end Download

end Perception
