import Perception.Proofs.Model.Cache

set_option autoImplicit false

/-! # What a retrieval fails for

A retrieval that fails does so as reading a file does, with exceptions that `Download.Stray` lists: a
path with a NUL character, which no file can have; a reply that announces a length that is no whole
number; and whatever else comes of asking for the address, of reading the body or of the bar that
shows how far the download has got (`Repository.openFile_surfaces`). The first two are complaints
about a value, and `Repository.openFile_garbled` is a retrieval that ends in the second of them.

Before the address is asked for a download can only fail to make its directories; afterwards the
answer decides, and once a reply is accepted there are only files, the connection and the bar to fail
for. That is the invariant of the phases (`Download.Fair`).
-/

namespace Perception

namespace Download

variable {job : Job} {h₀ h : Host} {bar : ProgressBar} {r : Reply} {f : Failure}

/-! ## Replies and results -/

def WasAsked (job : Job) (h₀ h : Host) : Prop :=
  h.requests = h₀.requests ++ [⟨job.url, true, job.timeout⟩]

/-- The address was asked for, and this reply came. -/
structure Came (job : Job) (h₀ h : Host) (r : Reply) : Prop where
  asked : WasAsked job h₀ h
  answer : h₀.web job.url = .reply r

/-- A reply whose status promises a body. -/
structure HasBody (job : Job) (r : Reply) : Prop where
  found : r.status ≠ 404
  noError : r.statusError? job.url = none

/-- A reply that would be taken if the length that it announces were a whole number. -/
structure Garbled (job : Job) (r : Reply) : Prop extends HasBody job r where
  unreadable : r.length? = none

/-- A reply whose length the bar cannot show. -/
structure Unshown (job : Job) (bar : ProgressBar) (r : Reply) (f : Failure) : Prop
    extends HasBody job r where
  fails : ∃ total, r.length? = some total ∧ bar total 0 = some f

/-- The failures of a download that are not those of reading a file. -/
inductive Stray (job : Job) (h₀ h : Host) : Failure → Prop
  /-- No file can have the path of the output. -/
  | nul (hnul : job.output.hasNul = true) : Stray job h₀ h (.plain .value)
  | garbled {r : Reply} (hcame : Came job h₀ h r) (hr : Garbled job r) :
      Stray job h₀ h (.plain .value)
  /-- Asking for the address led to no failure of the request. -/
  | asking {f : Failure} (hasked : WasAsked job h₀ h)
      (hanswer : h₀.web job.url = .failure (.other f)) : Stray job h₀ h f
  /-- Nor did reading the body. -/
  | reading {r : Reply} {n : Nat} {f : Failure} (hcame : Came job h₀ h r)
      (hbreaks : r.breaksAfter = some (n, .other f)) : Stray job h₀ h f
  | bar {r : Reply} {total : Int} {n : Nat} {f : Failure} (hcame : Came job h₀ h r)
      (hlength : r.length? = some total) (hbar : h₀.bar total n = some f) : Stray job h₀ h f

/-- What a download or retrieval comes to is fair: it gives the path of its output, or fails as
reading a file does, or for something else that is known. -/
structure Surfaces (job : Job) (h₀ h : Host) (result : Outcome Path) : Prop where
  returned : ∀ p, result = .ok p → p = job.output
  failed : ∀ f, result = .error f → f.kind.isIO = true ∨ Stray job h₀ h f
  missing : ∀ r, Came job h₀ h r → r.status = 404 → ∃ f, result = .error f ∧ f.kind = .notFound
  garbled : ∀ r, Came job h₀ h r → Garbled job r → result = .error (.plain .value)
  unshown : ∀ r f, Came job h₀ h r → Unshown job h₀.bar r f → result = .error f
  other : ∀ f, WasAsked job h₀ h → h₀.web job.url = .failure (.other f) → result = .error f

theorem Came.of_requests {h' : Host} (hcame : Came job h₀ h r)
    (hrequests : h'.requests = h.requests) : Came job h₀ h' r :=
  ⟨hrequests.trans hcame.asked, hcame.answer⟩

theorem WasAsked.ne (hasked : WasAsked job h₀ h) : h.requests ≠ h₀.requests := by
  rw [hasked]
  simp

/-- There is one reply at most. -/
theorem Came.eq {r' : Reply} (hcame : Came job h₀ h r) (hcame' : Came job h₀ h r') : r' = r :=
  Answer.reply.inj (hcame'.answer.symm.trans hcame.answer)

theorem Came.not_failure {m : Mishap} (hcame : Came job h₀ h r) :
    h₀.web job.url ≠ .failure m := by
  rw [hcame.answer]
  nofun

theorem Stray.of_requests {h' : Host} (hs : Stray job h₀ h f)
    (hrequests : h'.requests = h.requests) : Stray job h₀ h' f := by
  cases hs with
  | nul hnul => exact .nul hnul
  | garbled hcame hr => exact .garbled (hcame.of_requests hrequests) hr
  | asking hasked hanswer => exact .asking (hrequests.trans hasked) hanswer
  | reading hcame hbreaks => exact .reading (hcame.of_requests hrequests) hbreaks
  | bar hcame hlength hbar => exact .bar (hcame.of_requests hrequests) hlength hbar

theorem Surfaces.of_requests {h' : Host} {result : Outcome Path} (hs : Surfaces job h₀ h result)
    (hrequests : h'.requests = h.requests) : Surfaces job h₀ h' result where
  returned := hs.returned
  failed f hf := (hs.failed f hf).imp_right fun h => h.of_requests hrequests
  missing r hcame := hs.missing r (hcame.of_requests hrequests.symm)
  garbled r hcame := hs.garbled r (hcame.of_requests hrequests.symm)
  unshown r f hcame := hs.unshown r f (hcame.of_requests hrequests.symm)
  other f hasked := hs.other f (hrequests.symm.trans hasked)

/-- Without a request. -/
theorem Surfaces.of_unasked {result : Outcome Path} (hrequests : h.requests = h₀.requests)
    (hreturned : ∀ p, result = .ok p → p = job.output)
    (hfailed : ∀ f, result = .error f →
      f.kind.isIO = true ∨ f = .plain .value ∧ job.output.hasNul = true) :
    Surfaces job h₀ h result where
  returned := hreturned
  failed f hf := (hfailed f hf).imp_right fun ⟨hvalue, hnul⟩ => hvalue ▸ .nul hnul
  missing _ hcame := absurd hrequests hcame.asked.ne
  garbled _ hcame := absurd hrequests hcame.asked.ne
  unshown _ _ hcame := absurd hrequests hcame.asked.ne
  other _ hasked := absurd hrequests hasked.ne

theorem Surfaces.of_unasked_error (hrequests : h.requests = h₀.requests)
    (hf : f.kind.isIO = true ∨ f = .plain .value ∧ job.output.hasNul = true) :
    Surfaces job h₀ h (.error f) :=
  .of_unasked hrequests nofun fun _ hf' => Except.error.inj hf' ▸ hf

/-- Without a reply. -/
theorem Surfaces.of_mishap {m : Mishap} (hasked : WasAsked job h₀ h)
    (hanswer : h₀.web job.url = .failure m) :
    Surfaces job h₀ h (.error (m.ofDownload job.url)) where
  returned := nofun
  failed f hf := by
    cases hf
    cases m with
    | request text => exact Or.inl rfl
    | other f => exact Or.inr (.asking hasked hanswer)
  missing _ hcame := absurd hanswer hcame.not_failure
  garbled _ hcame := absurd hanswer hcame.not_failure
  unshown _ _ hcame := absurd hanswer hcame.not_failure
  other f _ hother := by
    cases hanswer.symm.trans hother
    rfl

/-! ## Replies that are not taken -/

/-- What a reply that is not taken is refused for. -/
inductive Refused (job : Job) (bar : ProgressBar) (r : Reply) : Failure → Prop
  | missing (h404 : r.status = 404) : Refused job bar r (.remoteMissing job.url)
  | status {text : String} (hfound : r.status ≠ 404)
      (herror : r.statusError? job.url = some text) :
      Refused job bar r (.downloadFailed job.url text)
  | garbled (hr : Garbled job r) : Refused job bar r (.plain .value)
  | unshown {f : Failure} (hr : Unshown job bar r f) : Refused job bar r f
  | nul (hr : HasBody job r) (hnul : job.output.hasNul = true) : Refused job bar r (.plain .value)

theorem refused_of_refusal? (hrefusal : refusal? job bar r = some f) : Refused job bar r f := by
  unfold refusal? at hrefusal
  split at hrefusal
  · next h404 =>
      cases hrefusal
      exact .missing h404
  · next hfound =>
      split at hrefusal
      · next text herror =>
          cases hrefusal
          exact .status hfound herror
      · next herror =>
          have hbody : HasBody job r := ⟨hfound, herror⟩
          split at hrefusal
          · next hlength =>
              cases hrefusal
              exact .garbled ⟨hbody, hlength⟩
          · next total hlength =>
              split at hrefusal
              · next hbar =>
                  cases hrefusal
                  exact .unshown ⟨hbody, total, hlength, hbar⟩
              · split at hrefusal
                · next hnul =>
                    cases hrefusal
                    exact .nul hbody hnul
                · cases hrefusal

theorem refusal?_of_missing (h404 : r.status = 404) :
    refusal? job bar r = some (.remoteMissing job.url) :=
  if_pos h404

theorem refusal?_of_garbled (hr : Garbled job r) : refusal? job bar r = some (.plain .value) := by
  simp only [refusal?, if_neg hr.found, hr.noError, hr.unreadable]

theorem refusal?_of_unshown (hr : Unshown job bar r f) : refusal? job bar r = some f := by
  obtain ⟨total, hlength, hbar⟩ := hr.fails
  simp only [refusal?, if_neg hr.found, hr.noError, hlength, hbar]

theorem Accepted.length_eq (hr : Accepted job bar r) : ∃ total, r.length? = some total := by
  unfold Accepted refusal? at hr
  grind

/-- With a reply. -/
theorem Surfaces.of_came {result : Outcome Path} (hcame : Came job h₀ h r)
    (hreturned : ∀ p, result = .ok p → p = job.output)
    (hfailed : ∀ f, result = .error f → f.kind.isIO = true ∨ Stray job h₀ h f)
    (hrefused : ∀ f, refusal? job h₀.bar r = some f → result = .error f) :
    Surfaces job h₀ h result where
  returned := hreturned
  failed := hfailed
  missing _ hcame' h404 :=
    ⟨_, hrefused _ (refusal?_of_missing (hcame.eq hcame' ▸ h404)), rfl⟩
  garbled _ hcame' hr := hrefused _ (refusal?_of_garbled (hcame.eq hcame' ▸ hr))
  unshown _ f hcame' hr := hrefused f (refusal?_of_unshown (hcame.eq hcame' ▸ hr))
  other _ _ hother := absurd hother hcame.not_failure

/-- **What a refused reply fails for.** -/
theorem Surfaces.of_refused (hcame : Came job h₀ h r) (hrefusal : refusal? job h₀.bar r = some f) :
    Surfaces job h₀ h (.error f) := by
  refine .of_came hcame nofun (fun f' hf => ?_) fun f' hrefusal' =>
    congrArg Except.error (Option.some.inj (hrefusal.symm.trans hrefusal'))
  cases hf
  cases refused_of_refusal? hrefusal with
  | missing h404 => exact Or.inl rfl
  | status hfound herror => exact Or.inl rfl
  | garbled hr => exact Or.inr (.garbled hcame hr)
  | unshown hr =>
      obtain ⟨total, hlength, hbar⟩ := hr.fails
      exact Or.inr (.bar hcame hlength hbar)
  | nul hr hnul => exact Or.inr (.nul hnul)

/-- With a reply that is accepted there are only files, the connection and the bar to fail for. -/
theorem Surfaces.of_accepted {result : Outcome Path} (hcame : Came job h₀ h r)
    (hr : Accepted job h₀.bar r)
    (hresult : result = .ok job.output ∨
      ∃ f, result = .error f ∧ (f.kind.isIO = true ∨ Stray job h₀ h f)) :
    Surfaces job h₀ h result := by
  refine .of_came hcame (fun p hp => ?_) (fun f hf => ?_) fun f hrefusal =>
    nomatch hr.symm.trans hrefusal
  · rcases hresult with rfl | ⟨f, rfl, -⟩
    · exact (Except.ok.inj hp).symm
    · cases hp
  · rcases hresult with rfl | ⟨f', rfl, hf'⟩
    · cases hf
    · cases hf
      exact hf'

/-- A transfer fails for the connection or for the bar. -/
theorem transfer_cases {bar : Nat → Option Failure} {ending : Option Failure} {shown : Nat}
    {bs : List Bytes} (hfails : (transfer bar ending shown bs).2 = some f) :
    ending = some f ∨ ∃ n, bar n = some f := by
  induction bs generalizing shown with
  | nil => exact Or.inl hfails
  | cons b bs ih =>
      unfold transfer at hfails
      cases hbar : bar (shown + b.length) with
      | some f' =>
          rw [hbar] at hfails
          cases hfails
          exact Or.inr ⟨_, hbar⟩
      | none =>
          rw [hbar] at hfails
          exact ih hfails

theorem fair_of_sending (hcame : Came job h₀ h r) (hr : Accepted job h₀.bar r)
    (hfails : (sending job h₀.bar r).2 = some f) : f.kind.isIO = true ∨ Stray job h₀ h f := by
  obtain ⟨total, hlength⟩ := hr.length_eq
  rcases transfer_cases hfails with hending | ⟨n, hbar⟩
  · obtain ⟨⟨n, m⟩, hbreaks, rfl⟩ := Option.map_eq_some_iff.mp hending
    cases m with
    | request text => exact Or.inl rfl
    | other f => exact Or.inr (.reading hcame hbreaks)
  · rw [hlength] at hbar
    exact Or.inr (.bar hcame hlength hbar)

/-! ## The invariant of the phases -/

/-- What holds before each phase: nothing was asked for, an accepted reply came, or the result is
settled. -/
def Fair (job : Job) (h₀ h : Host) : Phase → Prop
  | .makeParents | .makeTemp | .request _ =>
      h.requests = h₀.requests ∧ h.web = h₀.web ∧ h.bar = h₀.bar
  | .write _ _ failing => ∃ r, Came job h₀ h r ∧ Accepted job h₀.bar r ∧
      failing = (sending job h₀.bar r).2
  | .move _ => ∃ r, Came job h₀ h r ∧ Accepted job h₀.bar r
  | .removeTemp _ result | .done result => Surfaces job h₀ h result

theorem hasNul_of_parent {p : Path} (hnul : p.parent.hasNul = true) : p.hasNul = true := by
  obtain ⟨n, hn, hnul⟩ := List.any_eq_true.mp hnul
  exact List.any_eq_true.mpr ⟨n, List.dropLast_subset _ hn, hnul⟩

theorem fair_makeParents (hh : h.requests = h₀.requests ∧ h.web = h₀.web ∧ h.bar = h₀.bar) :
    Fair job h₀ (step job h .makeParents).1 (step job h .makeParents).2 := by
  unfold step
  dsimp only
  rw [Host.run_makeDirectories]
  by_cases hnul : job.output.parent.hasNul = true
  · rw [if_pos hnul]
    exact .of_unasked_error hh.1 (Or.inr ⟨rfl, hasNul_of_parent hnul⟩)
  · rw [if_neg hnul]
    rcases h.tree.makeDirectories h.here job.output.parent with ⟨tree, _ | _⟩
    · exact .of_unasked_error hh.1 (Or.inl (SystemCause.isIO_kind _))
    · exact hh

theorem fair_makeTemp (hh : h.requests = h₀.requests ∧ h.web = h₀.web ∧ h.bar = h₀.bar) :
    Fair job h₀ (step job h .makeTemp).1 (step job h .makeTemp).2 := by
  unfold step
  dsimp only
  split
  · exact .of_unasked_error hh.1 (Or.inl (SystemCause.isIO_kind _))
  · exact hh

theorem fair_onReply (hcame : Came job h₀ h r) (hbar : h.bar = h₀.bar) (temp : Location) :
    Fair job h₀ (onReply job h temp r).1 (onReply job h temp r).2 := by
  have hclosed : Came job h₀ h.closeLast r := hcame.of_requests rfl
  rcases onReply_cases job h temp r with
    ⟨f, hrefusal, heq⟩ | ⟨haccepted, ⟨e, -, heq⟩ | ⟨t, -, heq⟩⟩
  · rw [heq]
    exact .of_refused hclosed (hbar ▸ hrefusal)
  · rw [heq]
    exact .of_accepted hclosed (hbar ▸ haccepted) (Or.inr ⟨_, rfl, Or.inl (SystemCause.isIO_kind e)⟩)
  · rw [heq, hbar]
    exact ⟨r, hcame.of_requests rfl, hbar ▸ haccepted, rfl⟩

theorem fair_request (hh : h.requests = h₀.requests ∧ h.web = h₀.web ∧ h.bar = h₀.bar)
    (temp : Location) :
    Fair job h₀ (step job h (.request temp)).1 (step job h (.request temp)).2 := by
  have hasked : WasAsked job h₀ (asking job h) := by
    rw [WasAsked, ← hh.1]
    rfl
  rw [step_request, hh.2.1]
  cases hanswer : h₀.web job.url with
  | failure m => exact .of_mishap hasked hanswer
  | reply r => exact fair_onReply ⟨hasked, hanswer⟩ hh.2.2 temp

/-- A move that fails does so for the files. -/
theorem moveInto_cases (job : Job) (h : Host) (temp : Location) :
    (moveInto h temp job).1.requests = h.requests ∧
      ((moveInto h temp job).2 = .ok job.output ∨
        ∃ f, (moveInto h temp job).2 = .error f ∧ f.kind.isIO = true) := by
  unfold moveInto
  dsimp only
  split
  · split
    · split
      · exact ⟨rfl, Or.inr ⟨_, rfl, rfl⟩⟩
      · exact ⟨rfl, Or.inl rfl⟩
    · exact ⟨rfl, Or.inl rfl⟩
  · exact ⟨rfl, Or.inr ⟨_, rfl, rfl⟩⟩
  · exact ⟨rfl, Or.inr ⟨_, rfl, SystemCause.isIO_kind _⟩⟩

/-- **Each step leads from what is fair to what is fair.** -/
theorem fair_step (h : Host) (phase : Phase) (hfair : Fair job h₀ h phase) :
    Fair job h₀ (step job h phase).1 (step job h phase).2 := by
  cases phase with
  | makeParents => exact fair_makeParents hfair
  | makeTemp => exact fair_makeTemp hfair
  | request temp => exact fair_request hfair temp
  | write temp bs failing =>
      obtain ⟨r, hcame, hr, hfailing⟩ := hfair
      have hnext : Came job h₀ h.closeLast r := hcame.of_requests rfl
      match bs, failing with
      | _ :: _, _ => exact ⟨r, hcame.of_requests rfl, hr, hfailing⟩
      | [], some f =>
          exact .of_accepted hnext hr (Or.inr ⟨f, rfl, fair_of_sending hnext hr hfailing.symm⟩)
      | [], none => exact ⟨r, hnext, hr⟩
  | move temp =>
      obtain ⟨r, hcame, hr⟩ := hfair
      obtain ⟨hrequests, hresult⟩ := moveInto_cases job h temp
      exact .of_accepted (hcame.of_requests hrequests) hr
        (hresult.imp_right fun ⟨f, hf, hio⟩ => ⟨f, hf, Or.inl hio⟩)
  | removeTemp temp result => exact Surfaces.of_requests hfair rfl
  | done result => exact hfair

/-- **What a download fails for**, whatever the web answers and wherever it is to go. -/
theorem download_surfaces (url : String) (output : Path) (timeout : Datum) (h : Host) :
    Surfaces ⟨url, output, timeout⟩ h (download url output timeout h).2
      (download url output timeout h).1 := by
  let job : Job := ⟨url, output, timeout⟩
  have hstart : Fair job h h .makeParents := ⟨rfl, rfl, rfl⟩
  exact run_keeps fair_step (fun h temp hrequest => hrequest.2.1) (stepsFor h.web url) hstart
    (stepsLeft_makeParents job h)

end Download

/-- Looking for a file fails as reading it does. -/
theorem Host.isIO_of_isFile {h : Host} {p : Path} {e : Failure}
    (hfails : ((isFile p).run h).1 = .error e) : e.kind.isIO = true := by
  by_cases hnul : p.hasNul = true
  · rw [run_isFile_nul h hnul] at hfails
    cases hfails
  · rw [run_isFile h p (Bool.eq_false_iff.mpr hnul)] at hfails
    cases hfound : h.tree.isFile h.here p with
    | ok found =>
        rw [hfound] at hfails
        cases hfails
    | error cause =>
        rw [hfound] at hfails
        cases hfails
        exact cause.isIO_kind

namespace Repository

open Download

/-- The download that a file of an artifact may need. -/
def jobOf (r : Repository) (a : Artifact) (n : String) : Job :=
  ⟨r.urlOf a n, r.fileOf a n, Host.patience⟩

/-- **What a retrieval fails for**, and the download under it. -/
theorem openFile_surfaces (r : Repository) (a : Artifact) (n : String) (h : Host) :
    Surfaces (r.jobOf a n) h ((r.openFile a n).run h).2 ((r.openFile a n).run h).1 ∧
      Surfaces (r.jobOf a n) h (download (r.urlOf a n) (r.fileOf a n) Host.patience h).2
        (download (r.urlOf a n) (r.fileOf a n) Host.patience h).1 := by
  have hdownload := download_surfaces (r.urlOf a n) (r.fileOf a n) Host.patience h
  refine ⟨?_, hdownload⟩
  -- looking for the file first changes nothing
  have hleaves := (Host.leaves_isFile (r.fileOf a n)).run_eq h
  cases hfound : ((Host.isFile (r.fileOf a n)).run h).1 with
  | error e =>
      rw [hfound] at hleaves
      rw [openFile, Outcome.run_bind_error hleaves]
      exact .of_unasked_error rfl (Or.inl (Host.isIO_of_isFile hfound))
  | ok found =>
      rw [hfound] at hleaves
      rw [openFile, Outcome.run_bind_ok hleaves]
      cases found with
      | true =>
          refine .of_unasked rfl (fun _ hp => (Except.ok.inj hp).symm) fun _ hf => ?_
          cases hf
      | false =>
          rw [if_neg Bool.false_ne_true]
          cases r.isRemote with
          | true => exact hdownload
          | false => exact .of_unasked_error rfl (Or.inl rfl)

/-- **An unreadable length** surfaces as a complaint about a value where the file is asked for. -/
theorem Shelf.garbled {r : Repository} {a : Artifact} {l : Location} {h : Host} {n : String}
    (hs : r.Shelf a l h) (hn : Perception.IsPlain n) (hremote : r.isRemote = true)
    (hread : ∀ c, ((Host.read (r.fileOf a n)).run h).1 ≠ .ok c)
    (hloc : (r.fileOf a n).hasNul = false →
      h.tree.locate h.here (r.fileOf a n) ≠ .error .nameTooLong)
    {rep : Reply} (hanswer : h.web (r.urlOf a n) = .reply rep)
    (hrep : Garbled (r.jobOf a n) rep) :
    ((r.openFile a n).run h).1 = .error (.plain .value) := by
  obtain ⟨-, hasked, -⟩ := hs.stocked hn (r.urlOf a n) Host.patience
  rw [run_openFile_missing hremote hread hloc]
  exact (download_surfaces (r.urlOf a n) (r.fileOf a n) Host.patience h).garbled rep
    ⟨hasked, hanswer⟩ hrep

/-- A reply that announces two bytes in words. -/
def wordyReply : Reply := ⟨200, "OK", [("content-length", "two")], [1, 2], none⟩

theorem garbled_wordyReply (job : Job) : Garbled job wordyReply := by
  have hlength : wordyReply.header? "content-length" = some "two" := by
    simp only [Reply.header?, wordyReply, List.filter_cons, decide_true, if_true, List.filter_nil]
    rfl
  refine ⟨⟨by decide, rfl⟩, ?_⟩
  rw [Reply.length?, hlength]
  rfl

def wordyHost : Host := { bareHost with web := fun _ => .reply wordyReply }

/-- So a retrieval need not fail as reading a file does. -/
theorem openFile_garbled :
    zoo.isRemote = true ∧ smallNet.IsPlain ∧ Perception.IsPlain "weights" ∧
      ((zoo.openFile smallNet "weights").run wordyHost).1 = .error (.plain .value) ∧
      (Failure.plain .value).kind.isIO = false := by
  have hplain : Perception.IsPlain "weights" := by decide
  have hlocate : wordyHost.tree.locate wordyHost.here (zoo.fileOf smallNet "weights")
      = .error .missing := rfl
  refine ⟨rfl, isPlain_smallNet, hplain, ?_, rfl⟩
  refine (shelf_bareHost.withWeb _).garbled hplain rfl (fun c hc => ?_) (fun _ hlong => ?_) rfl
    (garbled_wordyReply _)
  · obtain ⟨-, hread⟩ := Host.run_read_eq_ok.mp hc
    obtain ⟨l, hl, -⟩ := FileTree.read_eq_ok.mp hread
    cases hlocate.symm.trans hl
  · cases hlocate.symm.trans hlong

end Repository

end Perception
