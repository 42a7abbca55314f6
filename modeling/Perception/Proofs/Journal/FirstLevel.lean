import Perception.Journal.Chronicle
import Perception.Proofs.Session

set_option autoImplicit false

/-! # The first level decides

The root of the journal is set up once: by the first call that comes to a level, its own or that of
the settings (`Journal.journalled_firstLevel`). If there is such a level, it is the root's from then
on. If there is none, the call fails, and yet the root has its handler and keeps the level it had,
so later calls with proper levels do nothing (`Journal.journalled_bogus`). A call that cannot find
out the level of the settings leaves the root as it is.
-/

namespace Perception

namespace JournalRoot

variable {r : JournalRoot}

/-- The level that a root has once it is set up at a level: a proper one, or the one it had. -/
def settled (level : Datum) (r : JournalRoot) : Datum :=
  match levelOf level with
  | .ok (some l) => l
  | .ok none => r.level
  | .error _ => r.level

/-- Setting up installs a handler in any case, and fails if there is no such level. -/
theorem setUp_of_not_isRead (h : r.isRead = false) (level : Datum) :
    r.setUp level = (⟨r.settled level, true⟩, (levelOf level).map fun _ => ()) := by
  have hread : ¬r.isRead = true := by
    rw [h]
    exact Bool.false_ne_true
  unfold setUp settled
  rw [if_neg hread]
  cases levelOf level with
  | error e => rfl
  | ok l => cases l <;> rfl

theorem isRead_setUp (level : Datum) (r : JournalRoot) : (r.setUp level).1.isRead = true := by
  cases h : r.isRead with
  | true =>
      rw [setUp_of_isRead level r h]
      exact h
  | false => rw [setUp_of_not_isRead h]

end JournalRoot

namespace Journal

open Outcome Session

variable {s : Session} {level : Datum}

/-! ## One call -/

/-- The level that a call comes to: the one that it is given, or that of the settings. -/
def levelAsked (s : Session) : Datum → Outcome Datum
  | .null => ((setting Settings.logLevel).run s).1
  | level => .ok level

/-- **A call that cannot find out its level** fails and leaves the root alone; another one sets the
root up. -/
theorem run_setUpJournal (s : Session) (level : Datum) :
    ((setUpJournal level).run s).1 = (levelAsked s level >>= fun l => (s.root.setUp l).2) ∧
    ((setUpJournal level).run s).2.root
      = (levelAsked s level).toOption.elim s.root fun l => (s.root.setUp l).1 := by
  by_cases hnull : level = .null
  · subst hnull
    have hroot : ((setting Settings.logLevel).run s).2.root = s.root :=
      leavesRoot_setting Settings.logLevel s
    rw [setUpJournal_null, levelAsked]
    rcases hrun : (setting Settings.logLevel).run s with ⟨o, t⟩
    rw [hrun] at hroot
    cases o with
    | error e =>
        rw [run_bind_error hrun]
        exact ⟨rfl, hroot⟩
    | ok l =>
        rw [run_bind_ok hrun, ← hroot]
        exact ⟨rfl, rfl⟩
  · rw [setUpJournal_of_ne hnull]
    cases level with
    | null => exact absurd rfl hnull
    | _ => exact ⟨rfl, rfl⟩

/-- What happens around the settings leaves the root alone. -/
theorem leavesRoot_settings (e : Settings.Event) : Leaves Session.root e.act := by
  have hopen (path : Option Path) : Leaves Session.root (openSettings path) := by
    intro s
    by_cases hload : path ≠ none ∨ s.settings = none
    · rw [Settings.run_openSettings_loaded hload]
      cases Settings.contentAt s.host (Settings.fileFor path s) <;> rfl
    · obtain ⟨hpath, hs⟩ := not_or.mp hload
      obtain rfl := Decidable.not_not.mp hpath
      obtain ⟨now, hnow⟩ := Option.ne_none_iff_exists'.mp hs
      rw [Settings.run_openSettings_inForce hnow]
  intro s
  cases e with
  | files tree => rfl
  | surroundings name => rfl
  | ask path =>
      rw [Settings.Event.act, run_map]
      exact hopen path s
  | reload =>
      have hreload : Leaves Session.root reloadSettings := by
        intro s
        rw [Settings.run_reloadSettings rfl]
        split <;> rfl
      exact hreload.bind (fun _ => leaves_pure _ _) s
  | loadApart path =>
      rw [Settings.Event.act, run_map, Settings.run_loadSettings]

/-! ## One event -/

/-- The level that an event comes to, if it is a call that finds one out. -/
def Record.level? (r : Record) : Option Datum :=
  match r.event with
  | .setUp level => (levelAsked r.before level).toOption
  | .settings _ => none

/-- The root once the first of some levels has been asked for. -/
def rootAfter (r : JournalRoot) (log : List Record) : JournalRoot :=
  (log.findSome? Record.level?).elim r fun l => (r.setUp l).1

/-- What happens to the root is up to the level alone. -/
theorem root_run_act (e : Event) (s : Session) (o : Outcome Unit) (t : Session) :
    (e.act.run s).2.root = rootAfter s.root [⟨e, s, o, t⟩] := by
  cases e with
  | settings e =>
      rw [Event.act, run_map]
      exact leavesRoot_settings e s
  | setUp level =>
      refine (run_setUpJournal s level).2.trans ?_
      rw [rootAfter, List.findSome?_singleton]
      rfl

/-! ## The run -/

/-- Levels after the first one make no difference. -/
theorem rootAfter_cons (r : JournalRoot) (q : Record) (log : List Record) :
    rootAfter (rootAfter r [q]) log = rootAfter r (q :: log) := by
  unfold rootAfter
  rw [List.findSome?_singleton, List.findSome?_cons]
  cases q.level? with
  | none => rfl
  | some l =>
      have hread : (r.setUp l).1.isRead = true := JournalRoot.isRead_setUp l r
      cases log.findSome? Record.level? with
      | none => rfl
      | some l' =>
          show ((r.setUp l).1.setUp l').1 = (r.setUp l).1
          rw [JournalRoot.setUp_of_isRead _ _ hread]

/-- **The root is what the first level makes of it**, whatever comes later. -/
theorem root_journalled (s : Session) (es : List Event) :
    (s.journalled es).2.root = rootAfter s.root (s.journalled es).1 := by
  induction es generalizing s with
  | nil => rfl
  | cons e es ih =>
      rcases hrun : e.act.run s with ⟨outcome, t⟩
      have hlog : s.journalled (e :: es)
          = (⟨e, s, outcome, t⟩ :: (t.journalled es).1, (t.journalled es).2) := by
        rw [Session.journalled, hrun]
      have hroot : t.root = rootAfter s.root [⟨e, s, outcome, t⟩] := by
        rw [← root_run_act, hrun]
      rw [hlog, ih, hroot, rootAfter_cons]

/-- A record in the middle of a log is that of an event in the session that those before it lead
to. -/
theorem exists_of_journalled {s : Session} {es : List Event} {before after : List Record}
    {r : Record} (h : (s.journalled es).1 = before ++ r :: after) :
    ∃ earlier, (s.journalled earlier).1 = before ∧ (s.journalled earlier).2 = r.before ∧
      r.event.act.run r.before = (r.outcome, r.after) := by
  induction before generalizing s es with
  | nil =>
      cases es with
      | nil => cases h
      | cons e es =>
          rcases hrun : e.act.run s with ⟨outcome, t⟩
          rw [Session.journalled, hrun] at h
          cases h
          exact ⟨[], rfl, rfl, hrun⟩
  | cons q before ih =>
      cases es with
      | nil => cases h
      | cons e es =>
          rcases hrun : e.act.run s with ⟨outcome, t⟩
          rw [Session.journalled, hrun] at h
          obtain ⟨rfl, hrest⟩ := List.cons.inj h
          obtain ⟨earlier, hlog, hbefore, hact⟩ := ih hrest
          refine ⟨e :: earlier, ?_, ?_, hact⟩
          · rw [Session.journalled, hrun, ← hlog]
          · rw [Session.journalled, hrun, ← hbefore]

/-! ## The first level -/

/-- What becomes of a call that asks for a level, where `first` says that no call before it came to
one. -/
structure Record.Effect (r : Record) (level : Datum) (first : Prop) : Prop where
  /-- If the level cannot be found out, the call fails and leaves the root alone. -/
  lost : ∀ e, levelAsked r.before level = .error e →
    r.outcome = .error e ∧ r.after.root = r.before.root
  /-- The first level installs a handler. If there is no such level the call fails, and the root
  keeps the level it had. -/
  decides : ∀ l, levelAsked r.before level = .ok l → first →
    r.outcome = (JournalRoot.levelOf l).map (fun _ => ()) ∧
      r.after.root = ⟨r.before.root.settled l, true⟩
  /-- After that nothing happens, whatever the level. -/
  ignored : ∀ l, levelAsked r.before level = .ok l → ¬first →
    r.outcome = .ok () ∧ r.after.root = r.before.root

theorem findSome?_level?_eq_none {log : List Record} :
    log.findSome? Record.level? = none ↔ ∀ q ∈ log, q.level? = none := by
  rw [List.findSome?_eq_none_iff]

/-- A call after some events. -/
theorem effect_of_root {r : Record} {root : JournalRoot} {before : List Record}
    (hr : root.isRead = false) (hbefore : r.before.root = rootAfter root before)
    (hevent : r.event = .setUp level) (hact : r.event.act.run r.before = (r.outcome, r.after)) :
    r.Effect level (∀ q ∈ before, q.level? = none) := by
  obtain ⟨houtcome, hroot⟩ := run_setUpJournal r.before level
  rw [hevent] at hact
  have hrun : (setUpJournal level).run r.before = (r.outcome, r.after) := hact
  simp only [hrun] at houtcome hroot
  refine ⟨fun e he => ?_, fun l hl hfirst => ?_, fun l hl hfirst => ?_⟩
  · rw [houtcome, hroot, he]
    exact ⟨rfl, rfl⟩
  · have hunread : r.before.root.isRead = false := by
      rw [hbefore, rootAfter, findSome?_level?_eq_none.mpr hfirst]
      exact hr
    rw [houtcome, hroot, hl]
    show (r.before.root.setUp l).2 = _ ∧ (r.before.root.setUp l).1 = _
    rw [JournalRoot.setUp_of_not_isRead hunread]
    exact ⟨rfl, rfl⟩
  · have hread : r.before.root.isRead = true := by
      rw [← findSome?_level?_eq_none] at hfirst
      obtain ⟨l', hl'⟩ := Option.ne_none_iff_exists'.mp hfirst
      rw [hbefore, rootAfter, hl']
      exact JournalRoot.isRead_setUp l' root
    rw [houtcome, hroot, hl]
    show (r.before.root.setUp l).2 = _ ∧ (r.before.root.setUp l).1 = _
    rw [JournalRoot.setUp_of_isRead _ _ hread]
    exact ⟨rfl, rfl⟩

/-- **The first level decides.** From a root without a handler, whatever happens around the journal
and its settings: there is a handler in the end exactly if some call came to a level. The root's level
is then the first of these levels, if there is such a level, and in all other cases the level that it
started with. What each call does depends on whether it finds out a level and whether it is the first
to do so. -/
theorem journalled_firstLevel (s : Session) (hs : s.root.isRead = false) (es : List Event) :
    ((s.journalled es).2.root.isRead = true ↔
      ∃ r ∈ (s.journalled es).1, ∃ l, r.level? = some l) ∧
    (s.journalled es).2.root.level
      = ((s.journalled es).1.findSome? Record.level?).elim s.root.level s.root.settled ∧
    ∀ before r after level, (s.journalled es).1 = before ++ r :: after →
      r.event = .setUp level → r.Effect level (∀ q ∈ before, q.level? = none) := by
  -- the first level among the events is all that counts for the root
  have hroot := root_journalled s es
  refine ⟨?_, ?_, fun before r after level hlog hevent => ?_⟩
  · rw [hroot, rootAfter]
    cases hfirst : (s.journalled es).1.findSome? Record.level? with
    | none =>
        have hnone := findSome?_level?_eq_none.mp hfirst
        constructor
        · intro hread
          exact absurd (hs.symm.trans hread) Bool.false_ne_true
        · rintro ⟨r, hr, l, hl⟩
          rw [hnone r hr] at hl
          cases hl
    | some l =>
        obtain ⟨r, hr, hl⟩ := List.exists_of_findSome?_eq_some hfirst
        exact ⟨fun _ => ⟨r, hr, l, hl⟩, fun _ => JournalRoot.isRead_setUp l s.root⟩
  · rw [hroot, rootAfter]
    cases (s.journalled es).1.findSome? Record.level? with
    | none => rfl
    | some l =>
        show (s.root.setUp l).1.level = s.root.settled l
        rw [JournalRoot.setUp_of_not_isRead hs]
  · -- an event acts on what those before it have left
    obtain ⟨earlier, hbefore, hsession, hact⟩ := exists_of_journalled hlog
    refine effect_of_root hs ?_ hevent hact
    rw [← hsession, ← hbefore, root_journalled]

def freshSession : Session := .start (.offline ⟨[]⟩)

/-- The settings are lost, then found again; then the journal is set up at a level that is no
level. -/
def lostAndFound : List Event :=
  [.settings (.surroundings (some "gone.yaml")), .setUp .null, .settings (.surroundings none),
    .setUp .null, .setUp (.float 1.5)]

/-- The level of the packaged settings decides, since that of the lost ones was not found out. -/
theorem journalled_firstLevel_lostAndFound :
    freshSession.root.isRead = false ∧
    (freshSession.journalled lostAndFound).2.root.isRead = true ∧
    (freshSession.journalled lostAndFound).2.root.level = .int 20 := by
  obtain ⟨hread, hlevel, -⟩ := journalled_firstLevel freshSession rfl lostAndFound
  refine ⟨rfl, hread.mpr ?_, hlevel.trans ?_⟩
  · exact ⟨_, List.getElem_mem (n := 3) (by decide), _, rfl⟩
  · rfl

/-- **A level that is no level sets the root up by half**: the call fails and yet leaves a handler
behind, so the proper level that is asked for next has no effect and is not refused either. -/
theorem journalled_bogus :
    ((freshSession.journalled [.setUp "bogus"]).1.map Record.outcome = [.error (.plain .value)] ∧
      (freshSession.journalled [.setUp "bogus"]).2.root ≠ freshSession.root) ∧
    JournalRoot.levelOf "debug" = .ok (some (.int 10)) ∧
    (freshSession.journalled [.setUp "bogus", .setUp "debug"]).1.map Record.outcome
      = [.error (.plain .value), .ok ()] ∧
    (freshSession.journalled [.setUp "bogus", .setUp "debug"]).2.root = ⟨.int 30, true⟩ := by
  refine ⟨⟨rfl, fun h => ?_⟩, rfl, rfl, rfl⟩
  have hread := congrArg JournalRoot.isRead h
  cases hread

end Journal

end Perception
