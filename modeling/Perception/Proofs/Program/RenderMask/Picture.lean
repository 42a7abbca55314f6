import Perception.Proofs.Image.Files
import Perception.Proofs.Program.RenderMask.Material

set_option autoImplicit false

/-! # From the arguments to the picture

A run seeds the streams, gathers what the arguments name, draws and delivers (`RenderMask.run_eq`).
It goes on in the same way wherever the streams were (`RenderMask.start_cases`), and until it
delivers the picture it leaves the machine alone (`RenderMask.finish_cases`).
-/

namespace Perception.RenderMask

open Outcome Perception.Random

/-! ## The steps of a run -/

/-- The seed that is asked for, or else that of the settings. The journal is set up before. -/
def chooseSeed (args : Datum) : SessionM Datum := do
  Session.setUpJournal .null
  match args.get "seed" with
  | .null => Session.setting Settings.seed
  | d => pure d

/-- All that is read: where the result goes, the mask and the image. -/
def gather (args : Datum) : SessionM (Path × Mask × Image) := do
  let imagePath ← Session.pathOf (args.get "image")
  let out ← outputOf imagePath (args.get "out")
  let classes ← readClasses (← Session.pathOf (args.get "classes"))
  let text ← Session.onHost (Host.readText (← Session.pathOf (args.get "mask")))
  let mask ← Session.ofOutcome (Mask.ofJson classes text)
  let image ← Session.onHost (Image.load imagePath)
  return (out, mask, image)

def deliver (out : Path) (w : Image) : SessionM Nat := do
  Session.onHost (Host.makeDirectories out.parent)
  Session.onHost (w.save out)
  Session.print s!"Overlay written to: {out}"
  return 0

/-- What follows once the streams are seeded. -/
def finish (args : Datum) : SessionM Nat :=
  gather args >>= fun g =>
    draw g.2.1 (g.2.2.convert .rgba) (args.get "transparency") (args.get "background") >>=
      fun w => deliver g.1 w

theorem run_eq (args : Datum) :
    run args = chooseSeed args >>= fun seed => Session.seed seed >>= fun _ => finish args := by
  unfold run chooseSeed finish gather deliver
  simp only [bind_assoc, pure_bind]
  congr 1
  funext _
  cases args.get "seed" <;> simp only [pure_bind]

variable {args : Datum} {s t : Session}

/-! ## Seeding -/

theorem ignoresStreams_chooseSeed (args : Datum) : Session.IgnoresStreams (chooseSeed args) := by
  unfold chooseSeed
  rw [Session.setUpJournal_null]
  have hroot : ∀ level, Session.IgnoresStreams (Session.setUpRoot level) := fun _ _ _ => rfl
  refine ((Session.ignoresStreams_setting _).bind hroot).bind fun _ => ?_
  cases args.get "seed" with
  | null => exact Session.ignoresStreams_setting _
  | _ => exact Session.ignoresStreams_pure _

theorem leavesHost_chooseSeed (args : Datum) : Leaves Session.host (chooseSeed args) := by
  unfold chooseSeed
  rw [Session.setUpJournal_null]
  have hroot : ∀ level, Leaves Session.host (Session.setUpRoot level) := fun _ _ => rfl
  refine ((Session.leavesHost_setting _).bind hroot).bind fun _ => ?_
  cases args.get "seed" with
  | null => exact Session.leavesHost_setting _
  | _ => exact leaves_pure _ _

/-- A seed that was chosen is the one that is asked for, or that of the settings which were in force
or came into force. -/
theorem isSeed_of_chooseSeed {d : Datum} {seed : Int} (h : (chooseSeed args).run s = (.ok d, t))
    (hd : Streams.seedOf d = .ok seed) (harray : Streams.isArraySeed seed = true) :
    IsSeed args s seed := by
  refine ⟨harray, ?_⟩
  unfold chooseSeed at h
  rw [Session.setUpJournal_null, Session.setting_eq] at h
  obtain ⟨_, t₁, hjournal, hchosen⟩ := exists_of_run_bind_ok h
  cases hseed : args.get "seed" with
  | null =>
      rw [hseed] at hchosen
      -- the settings were asked for when the journal was set up
      obtain ⟨level, t₂, hlevel, hroot⟩ := exists_of_run_bind_ok hjournal
      obtain ⟨now, t₃, hnow, hvalue⟩ := exists_of_run_bind_ok hlevel
      have hforce := Session.settings_of_openSettings hnow
      rw [Session.run_ofOutcome] at hvalue
      have ht₁ : t₁.settings = some now := by
        have hroot' : t₂.settings = t₁.settings := congrArg (fun r => r.2.settings) hroot
        have hvalue' : t₃ = t₂ := congrArg Prod.snd hvalue
        rw [← hroot', ← hvalue']
        exact hforce
      obtain ⟨now', t₄, hnow', hd'⟩ := exists_of_run_bind_ok hchosen
      rw [Settings.run_openSettings_inForce ht₁] at hnow'
      rw [Session.run_ofOutcome] at hd'
      obtain rfl : now = now' := Except.ok.inj (congrArg Prod.fst hnow')
      refine ⟨now, congrArg Prod.fst hnow, ?_⟩
      rw [show now.seed = .ok d from congrArg Prod.fst hd']
      exact hd
  | _ =>
      rw [hseed] at hchosen
      cases hchosen
      exact hd

/-- **How a run starts**: it seeds the streams and goes on the same way wherever they were, or fails
and leaves the machine alone. -/
theorem start_cases (args : Datum) (s : Session) :
    (∃ seed t, IsSeed args s seed ∧ t.host = s.host ∧ t.streams.arrays = .ofLowWord seed ∧
      ∀ r, (run args).run { s with streams := r } = (finish args).run t) ∨
    ∃ e, ∃ t : Session, t.host = s.host ∧
      ∀ r, ∃ r', (run args).run { s with streams := r } = (.error e, { t with streams := r' }) := by
  have hhost := leavesHost_chooseSeed args s
  rcases hrun : (chooseSeed args).run s with ⟨o, t⟩
  have hignores := fun r => ignoresStreams_chooseSeed args s r
  simp only [hrun] at hhost hignores
  cases o with
  | error e =>
      refine Or.inr ⟨e, t, hhost, fun r => ⟨r, ?_⟩⟩
      rw [run_eq, run_bind_error (hignores r)]
  | ok d =>
      rcases Session.seed_cases d with ⟨seed, hd, harray⟩ | ⟨e, he⟩
      · refine Or.inl ⟨seed, { t with streams := ⟨.ofInt seed, .ofLowWord seed, .ofLowWord seed⟩ },
          isSeed_of_chooseSeed hrun hd harray, hhost, rfl, fun r => ?_⟩
        rw [run_eq, run_bind_ok (hignores r), run_bind_ok (Session.run_seed hd harray _)]
      · refine Or.inr ⟨e, t, hhost, fun r => ?_⟩
        obtain ⟨r', hr'⟩ := he { t with streams := r }
        refine ⟨r', ?_⟩
        rw [run_eq, run_bind_ok (hignores r), run_bind_error hr']

/-! ## Reading -/

theorem leaves_outputOf (image : Path) (out : Datum) : Leaves id (outputOf image out) := by
  unfold outputOf
  split
  · exact Session.leaves_pathOf id out
  · exact Session.leaves_ofOutcome id _

theorem goesTo_of_outputOf {image out : Path}
    (h : ((outputOf image (args.get "out")).run s).1 = .ok out) : GoesTo args image out := by
  unfold outputOf at h
  by_cases htruthy : (args.get "out").isTruthy = true
  · rw [if_pos htruthy] at h
    obtain ⟨file, hfile, rfl⟩ := Session.pathOf_ok h
    refine Or.inl ⟨file, hfile, ?_, rfl⟩
    rintro rfl
    rw [hfile] at htruthy
    cases htruthy
  · rw [if_neg htruthy, Session.run_ofOutcome] at h
    exact Or.inr ⟨Bool.eq_false_iff.mpr htruthy, h⟩

theorem run_outputOf {image out : Path} (h : GoesTo args image out) (s : Session) :
    (outputOf image (args.get "out")).run s = (.ok out, s) := by
  unfold outputOf
  rcases h with ⟨file, hfile, hne, rfl⟩ | ⟨hnone, hbeside⟩
  · have htruthy : (Datum.text file).isTruthy = true := by
      simp only [Datum.isTruthy, Bool.not_eq_true', String.isEmpty_eq_false_iff]
      exact hne
    rw [hfile, if_pos htruthy]
    rfl
  · rw [hnone, hbeside]
    rfl

theorem leaves_readText (p : Path) : Leaves id (Session.onHost (Host.readText p)) :=
  Session.leaves_onHost (Host.leaves_readText p)

theorem leaves_readClasses (p : Path) : Leaves id (readClasses p) :=
  (leaves_readText p).bind fun _ => leaves_pure id _

theorem leaves_gather (args : Datum) : Leaves id (gather args) := by
  unfold gather
  refine (Session.leaves_pathOf id _).bind fun imagePath => ?_
  refine (leaves_outputOf imagePath _).bind fun out => ?_
  refine (Session.leaves_pathOf id _).bind fun classesPath => ?_
  refine (leaves_readClasses classesPath).bind fun classes => ?_
  refine (Session.leaves_pathOf id _).bind fun maskPath => ?_
  refine (leaves_readText maskPath).bind fun text => ?_
  refine (Session.leaves_ofOutcome id _).bind fun mask => ?_
  refine (Session.leaves_onHost (Image.leaves_load imagePath)).bind fun image => ?_
  exact leaves_pure id _

/-- What was gathered was in the files that the arguments name. -/
theorem gather_ok {out : Path} {mask : Mask} {image : Image}
    (h : ((gather args).run s).1 = .ok (out, mask, image)) :
    (∃ file, args.get "image" = .text file ∧ GoesTo args (.ofString file) out ∧
      ((Host.read (.ofString file)).run s.host).1 = .ok (.picture image)) ∧
    ∃ classes,
      (∃ file text, args.get "classes" = .text file ∧
        ((Host.readText (.ofString file)).run s.host).1 = .ok text ∧
        classes = Text.namesIn text) ∧
      ∃ file text, args.get "mask" = .text file ∧
        ((Host.readText (.ofString file)).run s.host).1 = .ok text ∧
        Mask.ofJson classes text = .ok mask := by
  -- gathering leaves the session as it is, so each part of it has run in the same one
  have hrun := (leaves_gather args).run_eq s
  rw [h] at hrun
  unfold gather at hrun
  obtain ⟨_, himage, hrun⟩ := (Session.leaves_pathOf id _).exists_of_bind_ok hrun
  obtain ⟨imageFile, himageFile, rfl⟩ := Session.pathOf_ok himage
  obtain ⟨_, hout, hrun⟩ := (leaves_outputOf _ _).exists_of_bind_ok hrun
  obtain ⟨_, hclassesPath, hrun⟩ := (Session.leaves_pathOf id _).exists_of_bind_ok hrun
  obtain ⟨classesFile, hclassesFile, rfl⟩ := Session.pathOf_ok hclassesPath
  obtain ⟨classes, hclasses, hrun⟩ := (leaves_readClasses _).exists_of_bind_ok hrun
  obtain ⟨_, hmaskPath, hrun⟩ := (Session.leaves_pathOf id _).exists_of_bind_ok hrun
  obtain ⟨maskFile, hmaskFile, rfl⟩ := Session.pathOf_ok hmaskPath
  obtain ⟨text, htext, hrun⟩ := (leaves_readText _).exists_of_bind_ok hrun
  obtain ⟨_, hmask, hrun⟩ := (Session.leaves_ofOutcome id _).exists_of_bind_ok hrun
  obtain ⟨_, hload, hrun⟩ :=
    (Session.leaves_onHost (Image.leaves_load _)).exists_of_bind_ok hrun
  cases congrArg Prod.fst hrun
  rw [Session.run_ofOutcome] at hmask
  have hreadClasses := (leaves_readClasses (.ofString classesFile)).run_eq s
  rw [hclasses] at hreadClasses
  obtain ⟨lines, hlines, hnames⟩ := (leaves_readText _).exists_of_bind_ok hreadClasses
  refine ⟨⟨imageFile, himageFile, goesTo_of_outputOf hout, Image.load_eq_ok.mp hload⟩,
    classes, ⟨classesFile, lines, hclassesFile, hlines, ?_⟩,
    maskFile, text, hmaskFile, htext, hmask⟩
  exact (Except.ok.inj (congrArg Prod.fst hnames)).symm

/-- What the arguments name is gathered. -/
theorem gather_of_material (j : Material args s.host) {out : Path}
    (hgoes : GoesTo args (.ofString j.imageFile) out) :
    (gather args).run s = (.ok (out, j.mask, j.image), s) := by
  have hpath : ∀ {key file}, args.get key = .text file →
      (Session.pathOf (args.get key)).run s = (.ok (.ofString file), s) := by
    intro key file h
    rw [h]
    rfl
  have htext : ∀ {file text}, ((Host.readText (.ofString file)).run s.host).1 = .ok text →
      (Session.onHost (Host.readText (.ofString file))).run s = (.ok text, s) := by
    intro file text h
    exact ((leaves_readText _).run_eq s).trans (Prod.ext h rfl)
  obtain ⟨classesFile, lines, hclassesFile, hlines, hnames⟩ := j.classes_read
  obtain ⟨maskFile, text, hmaskFile, hmaskText, hmask⟩ := j.mask_read
  have hclasses : (readClasses (.ofString classesFile)).run s = (.ok j.classes, s) := by
    unfold readClasses
    rw [run_bind_ok (htext hlines), hnames]
    rfl
  have hjson : (Session.ofOutcome (Mask.ofJson j.classes text)).run s = (.ok j.mask, s) := by
    rw [Session.run_ofOutcome, hmask]
  have hload : (Session.onHost (Image.load (.ofString j.imageFile))).run s = (.ok j.image, s) :=
    ((Session.leaves_onHost (Image.leaves_load _)).run_eq s).trans
      (Prod.ext (Image.load_eq_ok.mpr j.image_read) rfl)
  unfold gather
  rw [run_bind_ok (hpath j.imageFile_asked), run_bind_ok (run_outputOf hgoes s),
    run_bind_ok (hpath hclassesFile), run_bind_ok hclasses, run_bind_ok (hpath hmaskFile),
    run_bind_ok (htext hmaskText), run_bind_ok hjson, run_bind_ok hload]
  rfl

/-! ## Drawing -/

theorem run_draw (m : Mask) (im : Image) (transparency background : Datum) (s : Session) :
    ∃ r, (draw m im transparency background).run s
      = ((m.draw im (.ofDatum transparency) (.ofDatum background) s.streams.arrays).outcome.map
          fun _ => (m.draw im (.ofDatum transparency) (.ofDatum background) s.streams.arrays).image,
        { s with streams := r }) := by
  let drawn := m.draw im (.ofDatum transparency) (.ofDatum background) s.streams.arrays
  let after : Session := { s with streams := { s.streams with arrays := drawn.generator } }
  refine ⟨after.streams, ?_⟩
  show (Session.ofOutcome drawn.outcome >>= fun _ => (pure drawn.image : SessionM Image)).run after
    = (drawn.outcome.map fun _ => drawn.image, after)
  have houtcome := Session.run_ofOutcome drawn.outcome after
  cases hdrawn : drawn.outcome with
  | ok u =>
      rw [hdrawn] at houtcome
      rw [run_bind_ok houtcome]
      rfl
  | error e =>
      rw [hdrawn] at houtcome
      rw [run_bind_error houtcome]
      rfl

/-- Where drawing succeeds there is material for a picture. -/
theorem material_of_draw {words : List String} {h : Host} {imageFile : String} {image : Image}
    {classes : List String} {mask : Mask} {g : Generator} (hparse : parse words = .ok args)
    (himageFile : args.get "image" = .text imageFile)
    (himage : ((Host.read (.ofString imageFile)).run h).1 = .ok (.picture image))
    (hclasses : ∃ file text, args.get "classes" = .text file ∧
      ((Host.readText (.ofString file)).run h).1 = .ok text ∧ classes = Text.namesIn text)
    (hmask : ∃ file text, args.get "mask" = .text file ∧
      ((Host.readText (.ofString file)).run h).1 = .ok text ∧ Mask.ofJson classes text = .ok mask)
    (hdraw : (mask.draw (image.convert .rgba) (.ofDatum (args.get "transparency"))
      (.ofDatum (args.get "background")) g).outcome = .ok ()) :
    ∃ j : Material args h, j.imageFile = imageFile := by
  obtain ⟨hsize, alpha, halpha, hdrawn⟩ := Mask.draw_ok hdraw
  -- drawing needs a level, so the argument is a number
  have htransparency : ∃ x, args.get "transparency" = .float x ∧
      (Transparency.level x).alpha = .ok alpha := by
    rcases transparency_of_parse hparse with hnull | hlist | ⟨x, hx⟩
    · rw [hnull] at halpha
      cases halpha
    · rw [hlist] at halpha
      cases halpha
    · rw [hx] at halpha
      exact ⟨x, hx, halpha⟩
  have hbackground : ∃ background : Option Int,
      args.get "background" = background.elim .null .int := by
    rcases background_of_parse hparse with hnull | hlist | ⟨i, hi⟩
    · exact ⟨none, hnull⟩
    · -- an empty list names no colour
      have hmode : (image.convert .rgba).mode = .rgba := Image.mode_convert .rgba image
      have hd : (image.convert .rgba).mode.isDrawable = true := by
        rw [hmode]
        rfl
      have hunfit : Mask.fitFill (image.convert .rgba) (.numbers (.list []))
          = .error (.plain .type) := by
        show (Image.LooseFill.numbers (.list [])).settle (image.convert .rgba).mode = _
        rw [hmode]
        rfl
      rw [hlist] at hdrawn
      have hfailed := Mask.drawWith_unfit hd hsize
        (Mask.coloursOf alpha (g.take (3 * mask.classes.length)).1).toArray hunfit
      cases congrArg Prod.snd (hfailed.symm.trans hdrawn)
    · exact ⟨some i, hi⟩
  obtain ⟨background, hasked⟩ := hbackground
  exact ⟨{
    imageFile, image, classes, mask, alpha, background
    imageFile_asked := himageFile
    image_read := himage
    classes_read := hclasses
    mask_read := hmask
    size_eq := (Image.size_convert .rgba image).symm.trans hsize
    alpha_asked := htransparency
    background_asked := hasked }, rfl⟩

/-- **What is drawn** is what the material shows. -/
theorem shown_of_material {h : Host} (j : Material args h) (g : Generator) :
    ∃ w g', j.mask.draw (j.image.convert .rgba) (.ofDatum (args.get "transparency"))
        (.ofDatum (args.get "background")) g = ⟨w, g', .ok ()⟩ ∧ j.Shown g w := by
  have hmode : (j.image.convert .rgba).mode = .rgba := Image.mode_convert .rgba j.image
  have hsize : (j.image.convert .rgba).size = j.mask.size :=
    (Image.size_convert .rgba j.image).trans j.size_eq
  have hclasses : j.mask.classes = j.classes := by
    obtain ⟨_, _, -, -, hmask⟩ := j.mask_read
    exact Mask.classes_of_ofJson hmask
  have halpha : (Transparency.ofDatum (args.get "transparency")).alpha = .ok j.alpha := by
    obtain ⟨x, hx, hlevel⟩ := j.alpha_asked
    rw [hx]
    exact hlevel
  have hbackground : Mask.Background.ofDatum (args.get "background")
      = .ofColour (j.background.map Rgba.ofArgb) := by
    rw [j.background_asked]
    cases j.background <;> rfl
  obtain ⟨w, g', hw, hwmode, hwsize, hpixel⟩ :=
    Mask.draw_seen hmode hsize halpha (j.background.map Rgba.ofArgb) g
  rw [hclasses] at hpixel
  rw [hbackground]
  exact ⟨w, g', hw, hwmode, hwsize.trans (Image.size_convert .rgba j.image), hpixel⟩

/-! ## From the files to the picture -/

/-- **With all that a picture is made of** it is drawn, and the rest is writing it. -/
theorem finish_of_material {h : Host} (ht : t.host = h) (j : Material args h) {out : Path}
    (hgoes : GoesTo args (.ofString j.imageFile) out) :
    ∃ w r, j.Shown t.streams.arrays w ∧
      (finish args).run t = (deliver out w).run { t with streams := r } := by
  subst ht
  obtain ⟨r, hdraw⟩ := run_draw j.mask (j.image.convert .rgba) (args.get "transparency")
    (args.get "background") t
  obtain ⟨w, g', hdrawn, hshown⟩ := shown_of_material j t.streams.arrays
  rw [hdrawn] at hdraw
  refine ⟨w, r, hshown, ?_⟩
  unfold finish
  rw [run_bind_ok (gather_of_material j hgoes)]
  exact run_bind_ok hdraw

/-- **How a run goes on**: it fails and leaves the machine alone, or has a picture of what the
arguments and the files say, which is all that it writes. -/
theorem finish_cases {words : List String} (hparse : parse words = .ok args) (t : Session) :
    (∃ e, ∃ t' : Session, t'.host = t.host ∧ (finish args).run t = (.error e, t')) ∨
    ∃ (j : Material args t.host) (out : Path) (w : Image) (t' : Session),
      GoesTo args (.ofString j.imageFile) out ∧ j.Shown t.streams.arrays w ∧ t'.host = t.host ∧
      (finish args).run t = (deliver out w).run t' := by
  have hgather := (leaves_gather args).run_eq t
  cases hg : ((gather args).run t).1 with
  | error e =>
      rw [hg] at hgather
      exact Or.inl ⟨e, t, rfl, run_bind_error hgather⟩
  | ok g =>
      rcases g with ⟨out, mask, image⟩
      rw [hg] at hgather
      obtain ⟨⟨imageFile, himageFile, hgoes, himage⟩, classes, hclasses, hmask⟩ := gather_ok hg
      obtain ⟨r, hdraw⟩ := run_draw mask (image.convert .rgba) (args.get "transparency")
        (args.get "background") t
      -- all is read; drawing may still fail, and changes the streams alone
      cases houtcome : (mask.draw (image.convert .rgba) (.ofDatum (args.get "transparency"))
          (.ofDatum (args.get "background")) t.streams.arrays).outcome with
      | error e =>
          rw [houtcome] at hdraw
          refine Or.inl ⟨e, { t with streams := r }, rfl, ?_⟩
          unfold finish
          rw [run_bind_ok hgather]
          exact run_bind_error hdraw
      | ok u =>
          obtain ⟨j, rfl⟩ := material_of_draw hparse himageFile himage hclasses hmask houtcome
          obtain ⟨w, r, hshown, hfinish⟩ := finish_of_material rfl j hgoes
          exact Or.inr ⟨j, out, w, { t with streams := r }, hgoes, hshown, rfl, hfinish⟩

end Perception.RenderMask
