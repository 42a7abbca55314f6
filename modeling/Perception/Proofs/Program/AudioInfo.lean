import Perception.Program.AudioInfo
import Perception.Proofs.Audio.Sources
import Perception.Proofs.CommandLine.Arguments
import Perception.Proofs.Session

set_option autoImplicit false

/-! # A batch of audio files

Once a backend is found, the inputs are tried in order, and each of them gives one line: a printed
one if it is decoded, and a complaint if it cannot be read. So a run goes on to its end, and its exit
code says whether there was a complaint (`AudioInfo.run_batch`). But only failures to read are
complained about. An input that fails otherwise (`AudioInfo.Stops`) ends the run: those after it are
not tried.
-/

namespace Perception.AudioInfo

open Outcome Audio

variable {b : Backend} {h : Host} {s t : Session} {source : String} {sources : List String}
  {e : Failure} {c : Clip}

/-! ## One input -/

/-- Does an input end the run? It does if it fails otherwise than by a failure to read. -/
def Stops (b : Backend) (h : Host) (source : String) : Prop :=
  ∃ e, b.reading h source = .error e ∧ e.kind.isIO = false

def complaint (source : String) (e : Failure) : String := s!"{source}: error: {e.report}"

/-- The lines printed about inputs: one for each that is decoded. -/
def printed (b : Backend) (h : Host) (sources : List String) : List String :=
  sources.filterMap fun source => (b.reading h source).toOption.map (line source)

def complaints (b : Backend) (h : Host) (sources : List String) : List String :=
  sources.filterMap fun source =>
    match b.reading h source with
    | .ok _ => none
    | .error e => some (complaint source e)

/-- What some inputs have made of a session: a line for each of them on the console, and requests. -/
structure Reported (b : Backend) (sources : List String) (s t : Session) : Prop where
  asked : s.host.Asked t.host
  printed : t.console.printed = s.console.printed ++ AudioInfo.printed b s.host sources
  complaints : t.console.complaints = s.console.complaints ++ AudioInfo.complaints b s.host sources

theorem Reported.trans {u : Session} {xs ys : List String} (hst : Reported b xs s t)
    (htu : Reported b ys t u) : Reported b (xs ++ ys) s u := by
  have hsame : b.reading t.host = b.reading s.host :=
    funext fun source => Backend.reading_of_asked hst.asked b source
  refine ⟨hst.asked.trans htu.asked, ?_, ?_⟩
  · rw [htu.printed, hst.printed, AudioInfo.printed, AudioInfo.printed, AudioInfo.printed, hsame,
      List.filterMap_append, List.append_assoc]
  · rw [htu.complaints, hst.complaints, AudioInfo.complaints, AudioInfo.complaints,
      AudioInfo.complaints, hsame, List.filterMap_append, List.append_assoc]

/-- Reading an input, with what it leads to as a result. -/
theorem run_reading (b : Backend) (s : Session) (source : String) :
    ∃ h', s.host.Asked h' ∧
      (Except.ok <$> Session.onHost (b.fromUrl source) : SessionM (Outcome Clip)).run s
        = ((b.reading s.host source).map .ok, { s with host := h' }) := by
  obtain ⟨h', hasked, hrun⟩ := b.run_fromUrl s.host source
  refine ⟨h', hasked, (run_map _ _ s).trans ?_⟩
  have honHost : (Session.onHost (b.fromUrl source)).run s
      = (b.reading s.host source, { s with host := h' }) := by
    show (((b.fromUrl source).run s.host).1, { s with host := ((b.fromUrl source).run s.host).2 }) = _
    rw [hrun]
  rw [honHost]

/-- **An input that is decoded** is printed about. -/
theorem run_report_ok (hc : b.reading s.host source = .ok c) :
    ∃ t, (report b source).run s = (.ok true, t) ∧ Reported b [source] s t := by
  obtain ⟨h', hasked, hread⟩ := run_reading b s source
  rw [hc] at hread
  refine ⟨_, (run_bind_ok (run_tryCatch_ok hread)).trans rfl, hasked, ?_, ?_⟩
  · rw [AudioInfo.printed, List.filterMap_cons, List.filterMap_nil, hc]
    rfl
  · rw [AudioInfo.complaints, List.filterMap_cons, List.filterMap_nil, hc]
    exact (List.append_nil _).symm

/-- **An input that cannot be read** is complained about. -/
theorem run_report_error (he : b.reading s.host source = .error e) (hio : e.kind.isIO = true) :
    ∃ t, (report b source).run s = (.ok false, t) ∧ Reported b [source] s t := by
  obtain ⟨h', hasked, hread⟩ := run_reading b s source
  rw [he] at hread
  have hcaught : (tryCatch (Except.ok <$> Session.onHost (b.fromUrl source)) fun e =>
      if e.kind.isIO then pure (.error e) else throw e : SessionM (Outcome Clip)).run s
        = (.ok (.error e), { s with host := h' }) := by
    refine (run_tryCatch_error hread).trans ?_
    rw [if_pos hio]
    rfl
  refine ⟨_, (run_bind_ok hcaught).trans rfl, hasked, ?_, ?_⟩
  · rw [AudioInfo.printed, List.filterMap_cons, List.filterMap_nil, he]
    exact (List.append_nil _).symm
  · rw [AudioInfo.complaints, List.filterMap_cons, List.filterMap_nil, he]
    rfl

/-- **An input that fails otherwise** ends in its failure, without a line. -/
theorem run_report_stops (he : b.reading s.host source = .error e) (hio : e.kind.isIO = false) :
    ∃ t, (report b source).run s = (.error e, t) ∧ Reported b [] s t := by
  obtain ⟨h', hasked, hread⟩ := run_reading b s source
  rw [he] at hread
  have hthrown : (tryCatch (Except.ok <$> Session.onHost (b.fromUrl source)) fun e =>
      if e.kind.isIO then pure (.error e) else throw e : SessionM (Outcome Clip)).run s
        = (.error e, { s with host := h' }) := by
    refine (run_tryCatch_error hread).trans ?_
    rw [if_neg (Bool.eq_false_iff.mp hio)]
    rfl
  exact ⟨{ s with host := h' }, run_bind_error hthrown, hasked, (List.append_nil _).symm,
    (List.append_nil _).symm⟩

/-- An input that does not end the run gives its line. -/
theorem run_report (hgoes : ¬Stops b s.host source) :
    ∃ t, (report b source).run s = (.ok (b.reading s.host source).isOk, t) ∧
      Reported b [source] s t := by
  cases hr : b.reading s.host source with
  | ok c => exact run_report_ok hr
  | error e =>
      cases hio : e.kind.isIO with
      | true => exact run_report_error hr hio
      | false => exact absurd ⟨e, hr, hio⟩ hgoes

/-! ## All inputs -/

/-- **Inputs that do not end the run** give a line each, in order. -/
theorem run_reports (hgoes : ∀ source ∈ sources, ¬Stops b s.host source) :
    ∃ t, (sources.mapM (report b)).run s
        = (.ok (sources.map fun source => (b.reading s.host source).isOk), t) ∧
      Reported b sources s t := by
  induction sources generalizing s with
  | nil =>
      exact ⟨s, rfl, .refl _, (List.append_nil _).symm, (List.append_nil _).symm⟩
  | cons source sources ih =>
      obtain ⟨t, hrun, hreported⟩ := run_report (hgoes source (List.mem_cons_self ..))
      -- the next input finds the files and the web as this one did
      have hsame : b.reading t.host = b.reading s.host :=
        funext fun source => Backend.reading_of_asked hreported.asked b source
      have hrest : ∀ x ∈ sources, ¬Stops b t.host x := by
        intro x hx
        rw [Stops, hsame]
        exact hgoes x (List.mem_cons_of_mem _ hx)
      obtain ⟨u, hruns, hreports⟩ := ih hrest
      refine ⟨u, ?_, hreported.trans hreports⟩
      rw [List.mapM_cons, run_bind_ok hrun, run_bind_ok hruns, hsame]
      rfl

/-- **An input that ends the run** does so after those before it. -/
theorem run_reports_stopped {before : List String} (after : List String)
    (hgoes : ∀ x ∈ before, ¬Stops b s.host x) (he : b.reading s.host source = .error e)
    (hio : e.kind.isIO = false) :
    ∃ t, ((before ++ source :: after).mapM (report b)).run s = (.error e, t) ∧
      Reported b before s t := by
  obtain ⟨t, hrun, hreported⟩ := run_reports hgoes
  have he' : b.reading t.host source = .error e :=
    (Backend.reading_of_asked hreported.asked b source).trans he
  obtain ⟨u, hstop, hstopped⟩ := run_report_stops he' hio
  refine ⟨u, ?_, ?_⟩
  · rw [List.mapM_append, List.mapM_cons, run_bind_ok hrun, run_bind_error (run_bind_error hstop)]
  · have hboth := hreported.trans hstopped
    rwa [List.append_nil] at hboth

/-! ## The run -/

/-- The inputs are a list of texts. -/
theorem inputs_of_parse {words : List String} {args : Datum} (h : parse words = .ok args) :
    ∃ sources : List String, args.get "inputs" = .list (sources.map .text) := by
  have hother : ∀ s ∈ grammar.switches, ∀ d, ¬s.Gives "inputs" d := by
    rintro s hs d ⟨read, heffect, -⟩
    simp only [grammar, List.mem_cons, List.not_mem_nil, or_false] at hs
    rcases hs with rfl | rfl
    · cases heffect
    · exact absurd (CommandLine.Effect.store.inj heffect).1 (by decide)
  obtain ⟨sources, hfind⟩ := CommandLine.plain_of_arguments rfl hother h
  exact ⟨sources, by rw [Datum.get, hfind, Option.getD_some]⟩

/-- What a run comes to once the journal is set up and a backend is found. -/
theorem run_of_backend {args : Datum} {s₀ s₁ : Session}
    (hinputs : args.get "inputs" = .list (sources.map .text))
    (hjournal : (Session.setUpJournal (args.get "log_level")).run s₀ = (.ok (), s₁))
    (hbackend : Session.audioBackend.run s₁ = (.ok b, s)) :
    (run args).run s₀ = ((fun readable => if readable.all id then 0 else 1) <$>
      sources.mapM (report b) : SessionM Nat).run s := by
  have htexts : (args.get "inputs").items.filterMap Datum.text? = sources := by
    rw [hinputs]
    show (sources.map Datum.text).filterMap Datum.text? = sources
    rw [List.filterMap_map]
    exact List.filterMap_some
  unfold run
  rw [run_bind_ok hjournal, run_bind_ok hbackend, htexts]
  rfl

/-- **A batch of inputs.** Once the journal is set up and a backend is found, each input that does not
end the run gives exactly one line, in order: a printed one if it is decoded, and a complaint if it
cannot be read. If none of them ends the run, the exit code is one exactly if there was a complaint.
Otherwise the run fails as the first one does that ends it. The inputs that do so are addresses which
are malformed, name no file or mislead those who ask for them, and content at which the backend
breaks; all this for any web and any libraries that decode. -/
theorem run_batch {words : List String} {args : Datum} (hargs : parse words = .ok args)
    {s₀ s₁ s : Session} {b : Backend}
    (hjournal : (Session.setUpJournal (args.get "log_level")).run s₀ = (.ok (), s₁))
    (hbackend : Session.audioBackend.run s₁ = (.ok b, s)) :
    ∃ sources : List String, args.get "inputs" = .list (sources.map .text) ∧
      ((∀ x ∈ sources, ¬Stops b s.host x) →
        ∃ t, (run args).run s₀
            = (.ok (if sources.all fun x => (b.reading s.host x).isOk then 0 else 1), t) ∧
          Reported b sources s t) ∧
      (∀ before x after e, sources = before ++ x :: after → (∀ y ∈ before, ¬Stops b s.host y) →
        b.reading s.host x = .error e → e.kind.isIO = false →
        ∃ t, (run args).run s₀ = (.error e, t) ∧ Reported b before s t) ∧
      ∀ x e, b.reading s.host x = .error e ∧ e.kind.isIO = false ↔
        Stray s.host x e ∨ ∃ origin bs, material s.host x = .ok (origin, bs) ∧
          Backend.Breaks s.host.sound origin bs b e := by
  obtain ⟨sources, hinputs⟩ := inputs_of_parse hargs
  -- once there is a backend, the run is one report for each input
  have hrun := run_of_backend hinputs hjournal hbackend
  refine ⟨sources, hinputs, fun hgoes => ?_, ?_, fun x e => Backend.reading_notIO_iff⟩
  · obtain ⟨t, hreports, hreported⟩ := run_reports hgoes
    refine ⟨t, ?_, hreported⟩
    rw [hrun, run_map, hreports]
    have hall : (sources.map fun x => (b.reading s.host x).isOk).all id
        = sources.all fun x => (b.reading s.host x).isOk := List.all_map
    rw [← hall]
    rfl
  · rintro before x after e rfl hgoes he hio
    obtain ⟨t, hstopped, hreported⟩ := run_reports_stopped after hgoes he hio
    refine ⟨t, ?_, hreported⟩
    rw [hrun, run_map, hstopped]
    rfl

/-- A session on an empty machine, with the backend that keeps the rate of clips. -/
def bareSession : Session :=
  { Session.start (.offline ⟨[]⟩) with backend := some .plain }

def plainArgs (sources : List String) : Datum :=
  Datum.object [("inputs", .list (sources.map .text)), ("log_level", .null)]

def readySession : Session :=
  (Session.audioBackend.run ((Session.setUpJournal .null).run bareSession).2).2

theorem sources_of_plainArgs {xs : List String}
    (h : (plainArgs xs).get "inputs" = .list (sources.map .text)) : sources = xs := by
  have htexts : Datum.list (xs.map .text) = .list (sources.map .text) := h
  exact ((List.map_inj_right fun _ _ hxy => Datum.text.inj hxy).mp (Datum.list.inj htexts)).symm

/-- A file that is missing is complained about and does not end the run; a malformed address after it
does. -/
theorem run_batch_missing :
    (∃ t, (run (plainArgs ["missing.wav"])).run bareSession = (.ok 1, t) ∧
      t.console.complaints = ["missing.wav: error: Audio file not found: missing.wav"]) ∧
    ∃ t, (run (plainArgs ["missing.wav", "http://["])).run bareSession
        = (.error (.plain .value), t) ∧
      t.console.complaints = ["missing.wav: error: Audio file not found: missing.wav"] := by
  have hgoes : ¬Stops .plain readySession.host "missing.wav" := by
    rintro ⟨e, he, hio⟩
    have hmissing : Backend.plain.reading readySession.host "missing.wav"
      = .error (.audioMissing "missing.wav") := rfl
    cases hmissing.symm.trans he
    cases hio
  constructor
  · obtain ⟨sources, hsources, hall, -⟩ :=
      @run_batch ["missing.wav"] (plainArgs ["missing.wav"]) rfl bareSession
        ((Session.setUpJournal .null).run bareSession).2 readySession .plain rfl rfl
    obtain rfl := sources_of_plainArgs hsources
    obtain ⟨t, hrun, hreported⟩ := hall fun x hx => by
      obtain rfl := List.mem_singleton.mp hx
      exact hgoes
    exact ⟨t, hrun, hreported.complaints⟩
  · obtain ⟨sources, hsources, -, hstop, -⟩ :=
      @run_batch ["missing.wav", "http://["] (plainArgs ["missing.wav", "http://["]) rfl bareSession
        ((Session.setUpJournal .null).run bareSession).2 readySession .plain rfl rfl
    obtain rfl := sources_of_plainArgs hsources
    obtain ⟨t, hrun, hreported⟩ := hstop ["missing.wav"] "http://[" [] (.plain .value) rfl
      (fun x hx => by
        obtain rfl := List.mem_singleton.mp hx
        exact hgoes) rfl rfl
    exact ⟨t, hrun, hreported.complaints⟩

/-- **A malformed address ends the run**: no line is given about it, and the input after it is not
tried, although it would be complained about. -/
theorem run_malformed :
    parse ["http://[", "missing.wav"] = .ok (plainArgs ["http://[", "missing.wav"]) ∧
    ((Session.setUpJournal .null).run bareSession).1 = .ok () ∧
    ((run (plainArgs ["http://[", "missing.wav"])).run bareSession).1 = .error (.plain .value) ∧
    ((run (plainArgs ["http://[", "missing.wav"])).run bareSession).2.console = ⟨[], []⟩ :=
  ⟨rfl, rfl, rfl, rfl⟩

end Perception.AudioInfo
