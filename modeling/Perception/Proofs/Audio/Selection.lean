import Perception.Audio.Chronicle
import Perception.Proofs.Session

set_option autoImplicit false

/-! # The first usable backend

A selection goes through candidates in order. It passes over those that cannot be used
(`Audio.PassedOver`) and comes to one of three ends (`Audio.Selects`): a candidate is chosen, one
fails for another reason, or none is left. This holds whatever setting up a candidate may do
(`Session.run_firstUsable_iff`), so a candidate after the chosen one is not set up, since that could
be seen in the session.

The backend in force is the last one that was put in force or chosen. It is chosen when it is asked
for and there is none, and only then (`Audio.backend_firstUsable`).
-/

namespace Perception

open Outcome Session

/-! ## What the journal says -/

namespace Host

def noted (h : Host) (notes : List Note) : Host := { h with journal := h.journal ++ notes }

theorem noted_nil (h : Host) : h.noted [] = h := by
  rw [noted, List.append_nil]

theorem noted_noted (h : Host) (notes more : List Note) :
    (h.noted notes).noted more = h.noted (notes ++ more) := by
  unfold noted
  dsimp only
  rw [List.append_assoc]

end Host

namespace Audio

def unavailableNote (candidate : Datum) : Note :=
  ⟨.debug, audioSource, s!"Audio factory {candidate.shown} unavailable"⟩

def usingNote (candidate : Datum) : Note :=
  ⟨.debug, audioSource, s!"Using audio factory {candidate.shown}"⟩

def noted (s : Session) (n : Note) : Session := { s with host := s.host.noted [n] }

/-! ## Selections -/

/-- Some candidates are set up in turn and cannot be used, each of which is journalled. -/
inductive PassedOver (setUp : Datum → SessionM Backend) : Session → List Datum → Session → Prop
  | nil (s : Session) : PassedOver setUp s [] s
  | cons {s t u : Session} {c : Datum} {cs : List Datum} {e : Failure}
      (hrun : (setUp c).run s = (.error e, t)) (hkind : meansUnavailable e.kind = true)
      (hrest : PassedOver setUp (noted t (unavailableNote c)) cs u) :
      PassedOver setUp s (c :: cs) u

/-- What a selection comes to, and the entries it adds to the journal by itself. -/
inductive Selects (setUp : Datum → SessionM Backend) (s : Session) :
    List Datum → List Note → Outcome Backend → Session → Prop
  /-- A candidate is chosen after those before it were passed over. Those after it do not matter. -/
  | chosen {before : List Datum} {c : Datum} (after : List Datum) {b : Backend} {t u : Session}
      (hbefore : PassedOver setUp s before t) (hrun : (setUp c).run t = (.ok b, u)) :
      Selects setUp s (before ++ c :: after) (before.map unavailableNote ++ [usingNote c]) (.ok b)
        (noted u (usingNote c))
  /-- A candidate fails for a reason that does not mean that it cannot be used. -/
  | broken {before : List Datum} {c : Datum} (after : List Datum) {e : Failure} {t u : Session}
      (hbefore : PassedOver setUp s before t) (hrun : (setUp c).run t = (.error e, u))
      (hkind : meansUnavailable e.kind = false) :
      Selects setUp s (before ++ c :: after) (before.map unavailableNote) (.error e) u
  /-- All candidates are passed over. -/
  | exhausted {cs : List Datum} {t : Session} (hall : PassedOver setUp s cs t) :
      Selects setUp s cs (cs.map unavailableNote) (.error .noAudioBackend) t

end Audio

namespace Session

open Audio

variable {setUp : Datum → SessionM Backend} {s t u : Session} {c : Datum} {cs before : List Datum}
  {b : Backend} {e : Failure} {o : Outcome Backend}

/-! ## One candidate -/

theorem run_note (n : Note) (s : Session) :
    (note n.severity n.source n.text).run s = (.ok (), noted s n) := rfl

theorem run_firstUsable_chosen (hrun : (setUp c).run s = (.ok b, t)) (after : List Datum) :
    (firstUsable setUp (c :: after)).run s = (.ok b, noted t (usingNote c)) := by
  have htry : (some <$> setUp c).run s = (.ok (some b), t) := by
    rw [run_map, hrun]
    rfl
  unfold firstUsable
  rw [run_bind_ok (run_tryCatch_ok htry)]
  exact run_bind_ok (run_note (usingNote c) t)

theorem run_firstUsable_broken (hrun : (setUp c).run s = (.error e, t))
    (hkind : meansUnavailable e.kind = false) (after : List Datum) :
    (firstUsable setUp (c :: after)).run s = (.error e, t) := by
  have htry : (some <$> setUp c).run s = (.error e, t) := by
    rw [run_map, hrun]
    rfl
  unfold firstUsable
  refine run_bind_error ((run_tryCatch_error htry).trans ?_)
  rw [hkind]
  rfl

theorem run_firstUsable_unavailable (hrun : (setUp c).run s = (.error e, t))
    (hkind : meansUnavailable e.kind = true) (after : List Datum) :
    (firstUsable setUp (c :: after)).run s
      = (firstUsable setUp after).run (noted t (unavailableNote c)) := by
  have htry : (some <$> setUp c).run s = (.error e, t) := by
    rw [run_map, hrun]
    rfl
  have hcatch : (tryCatch (some <$> setUp c) fun e =>
      if meansUnavailable e.kind then pure none else throw e).run s = (.ok none, t) := by
    rw [run_tryCatch_error htry, hkind]
    rfl
  rw [firstUsable, run_bind_ok hcatch]
  exact run_bind_ok (run_note (unavailableNote c) t)

/-! ## All candidates -/

/-- What comes after candidates that are passed over is as if it came first. -/
theorem run_firstUsable_append (hbefore : PassedOver setUp s before t) (cs : List Datum) :
    (firstUsable setUp (before ++ cs)).run s = (firstUsable setUp cs).run t := by
  induction hbefore with
  | nil s => rfl
  | cons hrun hkind hrest ih =>
      rw [List.cons_append, run_firstUsable_unavailable hrun hkind, ih]

/-- A candidate that is passed over comes before a selection. -/
theorem selects_cons {notes : List Note} (hrun : (setUp c).run s = (.error e, t))
    (hkind : meansUnavailable e.kind = true)
    (h : Selects setUp (noted t (unavailableNote c)) cs notes o u) :
    Selects setUp s (c :: cs) (unavailableNote c :: notes) o u := by
  cases h with
  | chosen after hbefore hc => exact .chosen after (.cons hrun hkind hbefore) hc
  | broken after hbefore hc hbroken => exact .broken after (.cons hrun hkind hbefore) hc hbroken
  | exhausted hall => exact .exhausted (.cons hrun hkind hall)

/-- Every selection comes to an end. -/
theorem exists_selects (setUp : Datum → SessionM Backend) (s : Session) (cs : List Datum) :
    ∃ notes, Selects setUp s cs notes ((firstUsable setUp cs).run s).1
      ((firstUsable setUp cs).run s).2 := by
  induction cs generalizing s with
  | nil => exact ⟨[], .exhausted (.nil s)⟩
  | cons c cs ih =>
      -- the first candidate is passed over, or else the selection ends with it
      rcases hrun : (setUp c).run s with ⟨_ | b, t⟩
      · next e =>
          cases hkind : meansUnavailable e.kind with
          | true =>
              rw [run_firstUsable_unavailable hrun hkind]
              obtain ⟨notes, h⟩ := ih (noted t (unavailableNote c))
              exact ⟨_, selects_cons hrun hkind h⟩
          | false =>
              rw [run_firstUsable_broken hrun hkind]
              exact ⟨_, .broken cs (.nil s) hrun hkind⟩
      · rw [run_firstUsable_chosen hrun]
        exact ⟨_, .chosen cs (.nil s) hrun⟩

/-- **A selection chooses the first candidate that can be set up**, whatever setting up may do. -/
theorem run_firstUsable_iff :
    (firstUsable setUp cs).run s = (o, t) ↔ ∃ notes, Selects setUp s cs notes o t := by
  constructor
  · intro hrun
    have h := exists_selects setUp s cs
    rwa [hrun] at h
  · rintro ⟨notes, h⟩
    cases h with
    | chosen after hbefore hc =>
        rw [run_firstUsable_append hbefore, run_firstUsable_chosen hc]
    | broken after hbefore hc hkind =>
        rw [run_firstUsable_append hbefore, run_firstUsable_broken hc hkind]
    | exhausted hall =>
        have hrun := run_firstUsable_append hall []
        rw [List.append_nil] at hrun
        exact hrun

/-- What is left alone by setting up and by the journal is left alone by a selection. -/
theorem leaves_firstUsable {τ : Type} {view : Session → τ} (hsetUp : ∀ c, Leaves view (setUp c))
    (hnoted : ∀ s n, view (noted s n) = view s) (cs : List Datum) :
    Leaves view (firstUsable setUp cs) := by
  induction cs with
  | nil => exact leaves_throw view _
  | cons c cs ih =>
      intro s
      have hs := hsetUp c s
      rcases hrun : (setUp c).run s with ⟨_ | b, t⟩
      · next e =>
          rw [hrun] at hs
          cases hkind : meansUnavailable e.kind with
          | true =>
              rw [run_firstUsable_unavailable hrun hkind]
              exact (ih _).trans ((hnoted _ _).trans hs)
          | false =>
              rw [run_firstUsable_broken hrun hkind]
              exact hs
      · rw [hrun] at hs
        rw [run_firstUsable_chosen hrun]
        exact (hnoted _ _).trans hs

/-! ## Candidates as they are set up -/

/-- Setting a candidate up changes nothing but the settings, which may be read for it. -/
theorem leaves_setUpCandidate {τ : Type} {view : Session → τ}
    (hview : ∀ s now, view { s with settings := some now } = view s) (c : Datum) :
    Leaves view (setUpCandidate c) := by
  -- only a backend that resamples asks for a setting
  have hoffer (offer : Offer) : Leaves view (setUpOffer offer) := by
    cases offer with
    | resampling =>
        exact (leaves_setting hview Settings.audioRate).bind fun _ => leaves_pure view _
    | failing kind => exact leaves_throw view _
    | _ => exact leaves_pure view _
  intro s
  cases c with
  | text name =>
      have hget : (get : SessionM Session).run s = (.ok s, s) := rfl
      unfold setUpCandidate
      dsimp only
      rw [run_bind_ok hget]
      cases s.offers.lookup name with
      | some offer => exact hoffer offer s
      | none => rfl
  | _ => rfl

/-- Reading a file does not fail as a selection does. -/
theorem avoids_readText (p : Path) : Avoids .noAudioBackend (Host.readText p) := by
  have hcheck : Avoids .noAudioBackend (Host.checkPath p) := by
    unfold Host.checkPath
    split
    · exact avoids_throw nofun
    · exact avoids_pure _ _
  have hread : Avoids .noAudioBackend (Host.read p) := by
    refine hcheck.bind fun _ => Avoids.bind (fun _ h => nomatch h) fun h => ?_
    cases h.tree.read h.here p with
    | ok c => exact avoids_pure _ c
    | error cause => exact avoids_throw nofun
  refine hread.bind fun c => ?_
  cases (Host.bytesOf c).toString? with
  | some text => exact avoids_pure _ _
  | none => exact avoids_throw nofun

/-- Settings that cannot be read do not fail as a selection does. -/
theorem contentAt_ne_noAudioBackend (h : Host) (path : Option Path) :
    Settings.contentAt h path ≠ .error .noAudioBackend := by
  cases path with
  | none => exact nofun
  | some p =>
      have htext := avoids_readText p h
      show Settings.denoted p ((Host.readText p).run h).1 ≠ _
      cases ho : ((Host.readText p).run h).1 with
      | ok text =>
          dsimp only [Settings.denoted]
          cases Yaml.read? text.toList with
          | ok d => exact nofun
          | error fault =>
              intro he
              cases fault <;> cases he
      | error e =>
          rw [ho] at htext
          dsimp only [Settings.denoted, Settings.readingFailure]
          split
          · exact nofun
          · exact fun he => htext (congrArg Except.error (Except.error.inj he))

/-- A value that settings do not have is no failure of a selection. -/
theorem value_ne_noAudioBackend (now : Settings) (name key : String) (default : Datum) :
    now.value name key default ≠ .error .noAudioBackend := by
  have hentry (d : Datum) (key : String) (default : Datum) :
      Settings.entry d key default ≠ .error .noAudioBackend := by
    cases d <;> exact nofun
  have hpart : now.part name ≠ .error .noAudioBackend := by
    have htop := hentry (if now.content.isTruthy then now.content else .record []) name .null
    unfold Settings.part
    dsimp only
    cases hd : Settings.entry _ name .null with
    | ok d => exact nofun
    | error e =>
        rw [hd] at htop
        exact htop
  unfold Settings.value
  cases hd : now.part name with
  | ok d => exact hentry d key default
  | error e =>
      rw [hd] at hpart
      exact hpart

/-- Setting a candidate up does not fail as a selection does. -/
theorem avoids_setUpCandidate (c : Datum) : Avoids .noAudioBackend (setUpCandidate c) := by
  -- settings are read and looked into, and nothing there fails like that
  have hopen : Avoids .noAudioBackend (openSettings none) := by
    intro s
    cases hs : s.settings with
    | some now =>
        rw [Settings.run_openSettings_inForce hs]
        exact nofun
    | none =>
        have hcontent := contentAt_ne_noAudioBackend s.host (Settings.fileFor none s)
        rw [Settings.run_openSettings_loaded (Or.inr hs)]
        cases hc : Settings.contentAt s.host (Settings.fileFor none s) with
        | ok d => exact nofun
        | error e =>
            rw [hc] at hcontent
            exact fun he => hcontent (congrArg Except.error (Except.error.inj he))
  have hrate (now : Settings) : Avoids .noAudioBackend (ofOutcome now.audioRate) := by
    intro s
    rw [run_ofOutcome]
    exact value_ne_noAudioBackend now _ _ _
  have hoffer (offer : Offer) : Avoids .noAudioBackend (setUpOffer offer) := by
    cases offer with
    | resampling => exact (hopen.bind hrate).bind fun _ => avoids_pure _ _
    | failing kind => exact avoids_throw nofun
    | _ => exact avoids_pure _ _
  cases c with
  | text name =>
      refine Avoids.bind (fun _ h => nomatch h) fun s => ?_
      cases s.offers.lookup name with
      | some offer => exact hoffer offer
      | none => exact avoids_throw nofun
  | _ => exact avoids_throw nofun

/-- Setting candidates up changes nothing on the machine. -/
theorem host_setUpCandidate (hrun : (setUpCandidate c).run s = (o, t)) : t.host = s.host := by
  have hleaves : Leaves Session.host (setUpCandidate c) := leaves_setUpCandidate (fun _ _ => rfl) c
  have hs := hleaves s
  rwa [hrun] at hs

theorem host_passedOver (hall : PassedOver setUpCandidate s cs t) :
    t.host = s.host.noted (cs.map unavailableNote) := by
  induction hall with
  | nil s => exact (Host.noted_nil _).symm
  | cons hrun hkind hrest ih =>
      rw [ih, noted, Host.noted_noted, host_setUpCandidate hrun]
      rfl

/-- **What a selection changes on the machine** are the entries that it adds to the journal. -/
theorem host_selects {notes : List Note} (h : Selects setUpCandidate s cs notes o t) :
    t.host = s.host.noted notes := by
  cases h with
  | chosen after hbefore hrun =>
      rw [noted, host_setUpCandidate hrun, host_passedOver hbefore, Host.noted_noted]
  | broken after hbefore hrun hkind => rw [host_setUpCandidate hrun, host_passedOver hbefore]
  | exhausted hall => exact host_passedOver hall

/-- **No backend is found** exactly if all candidates are passed over. -/
theorem run_firstBackend_none_iff :
    (firstBackend cs).run s = (.error .noAudioBackend, t) ↔ PassedOver setUpCandidate s cs t := by
  unfold firstBackend
  rw [run_firstUsable_iff]
  constructor
  · rintro ⟨notes, h⟩
    cases h with
    | broken after hbefore hrun hkind =>
        -- a candidate itself does not fail in this way
        exact absurd (congrArg Prod.fst hrun) (avoids_setUpCandidate _ _)
    | exhausted hall => exact hall
  · intro hall
    exact ⟨_, .exhausted hall⟩

/-! ## Where candidates are from -/

/-- Candidates that are given are tried, whatever the settings say. -/
theorem newBackend_of_ne {d : Datum} (h : d ≠ .null) :
    newBackend d = ofOutcome d.listed >>= firstBackend := by
  cases d with
  | null => exact absurd rfl h
  | _ => rfl

/-- The candidates that settings name, or the standard ones where they name none. -/
def configured (d : Datum) : Datum :=
  if d.isTruthy then d else .list (standardNames.map .text)

theorem configured_ne (d : Datum) : configured d ≠ .null := by
  unfold configured
  split
  · next htruthy =>
      rintro rfl
      cases htruthy
  · exact nofun

/-- **Without candidates** a selection is one from among those of the settings. -/
theorem newBackend_null :
    newBackend .null = setting Settings.audioBackends >>= fun d => newBackend (configured d) := by
  have hgiven (d : Datum) :
      newBackend (configured d) = ofOutcome (configured d).listed >>= firstBackend :=
    newBackend_of_ne (configured_ne d)
  simp only [hgiven]
  rfl

theorem leavesBackend_newBackend (d : Datum) : Leaves Session.backend (newBackend d) := by
  have hgiven {d : Datum} (hd : d ≠ .null) : Leaves Session.backend (newBackend d) := by
    rw [newBackend_of_ne hd]
    exact (leaves_ofOutcome _ _).bind fun cs =>
      leaves_firstUsable (leaves_setUpCandidate fun _ _ => rfl) (fun _ _ => rfl) cs
  by_cases hd : d = .null
  · rw [hd, newBackend_null]
    exact (leaves_setting (fun _ _ => rfl) _).bind fun d => hgiven (configured_ne d)
  · exact hgiven hd

/-! ## The backend in force -/

theorem run_audioBackend_inForce (h : s.backend = some b) : audioBackend.run s = (.ok b, s) := by
  have hget : (get : SessionM Session).run s = (.ok s, s) := rfl
  unfold audioBackend
  rw [run_bind_ok hget, h]
  rfl

/-- Where no backend is in force, one is chosen and comes into force. -/
theorem run_audioBackend_new (h : s.backend = none) :
    audioBackend.run s
      = match (newBackend .null).run s with
        | (.ok b, t) => (.ok b, { t with backend := some b })
        | (.error e, t) => (.error e, t) := by
  have hget : (get : SessionM Session).run s = (.ok s, s) := rfl
  unfold audioBackend
  rw [run_bind_ok hget, h]
  dsimp only
  rcases hnew : (newBackend .null).run s with ⟨_ | b, t⟩
  · exact run_bind_error hnew
  · exact (run_bind_ok hnew).trans rfl

end Session

namespace Audio

variable {e : Event} {s t : Session}

/-- What becomes of an event that meets a session. -/
structure Event.Effect (e : Event) (s : Session) (outcome : Outcome (Option Backend))
    (t : Session) : Prop where
  /-- A backend that is in force is handed out, and nothing else happens. -/
  kept : ∀ b, e = .get → s.backend = some b → outcome = .ok (some b) ∧ t = s
  /-- Where none is in force there is one selection. What it chooses is handed out and comes into
  force. -/
  chosen : ∀ b u, e = .get → s.backend = none → (newBackend .null).run s = (.ok b, u) →
    outcome = .ok (some b) ∧ t = { u with backend := some b }
  /-- A selection that fails puts none in force. -/
  failed : ∀ f u, e = .get → s.backend = none → (newBackend .null).run s = (.error f, u) →
    outcome = .error f ∧ t = u ∧ t.backend = none
  /-- A backend that is put in force is in force, whatever was before. -/
  put : ∀ b, e = .set b → outcome = .ok none ∧ t = { s with backend := b }

theorem Event.run_get (s : Session) :
    Event.get.act.run s = ((audioBackend.run s).1.map some, (audioBackend.run s).2) :=
  run_map some audioBackend s

theorem Event.effect (e : Event) (s : Session) : e.Effect s (e.act.run s).1 (e.act.run s).2 where
  kept := by
    rintro b rfl hs
    rw [run_get, run_audioBackend_inForce hs]
    exact ⟨rfl, rfl⟩
  chosen := by
    rintro b u rfl hs hnew
    rw [run_get, run_audioBackend_new hs, hnew]
    exact ⟨rfl, rfl⟩
  failed := by
    rintro f u rfl hs hnew
    have hleaves := leavesBackend_newBackend .null s
    rw [hnew, hs] at hleaves
    rw [run_get, run_audioBackend_new hs, hnew]
    exact ⟨rfl, rfl, hleaves⟩
  put := by
    rintro b rfl
    exact ⟨rfl, rfl⟩

/-- The backend in force after one more record: one that was put in force or handed out. -/
def Record.held (last : Option Backend) (r : Record) : Option Backend :=
  match r.event, r.outcome with
  | .set b, _ => b
  | .get, .ok b => b
  | _, _ => last

/-- **An event** leaves the backend in force that its record says. -/
theorem Event.backend_run_act (e : Event) (s : Session) :
    (e.act.run s).2.backend = Record.held s.backend ⟨e, (e.act.run s).1⟩ := by
  have heffect := e.effect s
  cases e with
  | set b => rfl
  | other change => rfl
  | get =>
      cases hs : s.backend with
      | some b =>
          obtain ⟨houtcome, ht⟩ := heffect.kept b rfl hs
          rw [houtcome, ht, hs]
          rfl
      | none =>
          rcases hnew : (newBackend .null).run s with ⟨f | b, u⟩
          · obtain ⟨houtcome, -, hbackend⟩ := heffect.failed f u rfl hs hnew
            rw [houtcome, hbackend]
            rfl
          · obtain ⟨houtcome, ht⟩ := heffect.chosen b u rfl hs hnew
            rw [houtcome, ht]
            rfl

/-- **A run** leaves the backend in force that its log says. -/
theorem backend_listened (s : Session) (es : List Event) :
    (s.listened es).2.backend = (s.listened es).1.foldl Record.held s.backend := by
  induction es generalizing s with
  | nil => rfl
  | cons e es ih =>
      show ((e.act.run s).2.listened es).2.backend = _
      rw [ih, e.backend_run_act]
      rfl

/-- **The first usable backend is chosen, and kept.** However candidates are set up, a selection goes
through them in order: it passes over those that cannot be used, chooses the first one that can be
set up and does not touch those after it, and a failure of another kind ends it. With candidates as
they are set up here, all that it changes on the machine are the entries of the journal, and it ends
without a backend exactly if all candidates, of which there may be none, are passed over. Without
candidates it is one from among those of the settings, or from among the standard ones where the
settings name none. In the course of a program the backend in force is the one that was last put in
force or handed out, and the next event has the effect on it that it should have. -/
theorem backend_firstUsable (s : Session) :
    (∀ setUp cs o t, (firstUsable setUp cs).run s = (o, t) ↔
      ∃ notes, Selects setUp s cs notes o t) ∧
    (∀ cs notes o t, Selects setUpCandidate s cs notes o t →
      (newBackend (.list cs)).run s = (o, t) ∧ t.host = s.host.noted notes) ∧
    (∀ cs t, (newBackend (.list cs)).run s = (.error .noAudioBackend, t) ↔
      PassedOver setUpCandidate s cs t) ∧
    newBackend .null = (setting Settings.audioBackends >>= fun d => newBackend (configured d)) ∧
    ∀ es, let log := (s.listened es).1
      let now := (s.listened es).2
      now.backend = log.foldl Record.held s.backend ∧
        ∀ e : Event, e.Effect now (e.act.run now).1 (e.act.run now).2 := by
  have hlist (cs : List Datum) : (newBackend (.list cs)).run s = (firstBackend cs).run s :=
    run_bind_ok (run_ofOutcome (.ok cs) s)
  refine ⟨fun setUp cs o t => run_firstUsable_iff, fun cs notes o t h => ⟨?_, host_selects h⟩,
    fun cs t => ?_, newBackend_null, fun es => ⟨backend_listened s es, fun e => e.effect _⟩⟩
  · rw [hlist]
    exact run_firstUsable_iff.mpr ⟨notes, h⟩
  · rw [hlist]
    exact run_firstBackend_none_iff

/-! One program: of the standard backends only the second is on offer. It is asked for, taken out of
force, and asked for again. -/

/-- A session in which the first of the standard backends is missing. -/
def sparseSession : Session :=
  { Settings.sampleStart with offers := standardOffers.drop 1 }

def missingName : Datum := .text "modalkit.modality.audio.librosa_factory.LibrosaAudioFactory"

def offeredName : Datum := .text "modalkit.modality.audio.soundfile_factory.SoundFileAudioFactory"

/-- The second backend is chosen, each time after the first was tried. -/
theorem backend_firstUsable_sparse :
    (∃ t, (newBackend (.list [missingName, offeredName])).run sparseSession = (.ok .plain, t) ∧
      t.host.journal = [unavailableNote missingName, usingNote offeredName]) ∧
    (sparseSession.listened [.get, .set none]).2.backend = none ∧
    (sparseSession.listened [.get, .set none, .get]).2.backend = some .plain := by
  obtain ⟨-, hselects, -, -, hrun⟩ := backend_firstUsable sparseSession
  refine ⟨?_, (hrun [.get, .set none]).1, (hrun [.get, .set none, .get]).1⟩
  have hmissing : PassedOver setUpCandidate sparseSession [missingName]
      (noted sparseSession (unavailableNote missingName)) := .cons rfl rfl (.nil _)
  have hoffered : (setUpCandidate offeredName).run
      (noted sparseSession (unavailableNote missingName))
        = (.ok .plain, noted sparseSession (unavailableNote missingName)) := rfl
  obtain ⟨hchosen, hhost⟩ := hselects _ _ _ _ (.chosen [] hmissing hoffered)
  refine ⟨_, hchosen, ?_⟩
  rw [hhost]
  rfl

end Audio

end Perception
