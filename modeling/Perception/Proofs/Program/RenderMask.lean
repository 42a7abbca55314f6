import Perception.Proofs.Program.RenderMask.Picture

set_option autoImplicit false

/-! # A mask drawn from the command line

A run makes directories and writes only when the picture is drawn. So what goes wrong before changes
no file, and the picture depends on the files and the arguments alone (`RenderMask.run_shown`).
-/

namespace Perception.RenderMask

open Outcome Perception.Random

variable {args : Datum} {s t : Session}

/-! ## Writing -/

/-- The name of the file beside the image. -/
theorem name_of_outputBeside {image out : Path} (h : outputBeside image = .ok out) :
    image.names ≠ [] ∧
      out = { image with names := image.names.dropLast ++ [image.stem ++ "_mask.png"] } := by
  unfold outputBeside Path.withName? at h
  by_cases hnames : image.names = []
  · rw [if_pos hnames] at h
    cases h
  · rw [if_neg hnames] at h
    cases h
    exact ⟨hnames, rfl⟩

/-- A name is its stem, or goes on with a point. -/
theorem eq_stemOf_append (cs : List Char) :
    cs = Path.stemOf cs ∨ ∃ ending, cs = Path.stemOf cs ++ '.' :: ending := by
  unfold Path.stemOf
  cases hcut : Text.cutAtLast? (· = '.') cs with
  | none => exact Or.inl rfl
  | some found =>
      rcases found with ⟨before, ending⟩
      obtain ⟨c, hc, hcs⟩ := Text.cutAtLast?_eq_some hcut
      dsimp only
      split
      · exact Or.inl rfl
      · rw [decide_eq_true_eq] at hc
        exact Or.inr ⟨ending, hc ▸ hcs⟩

/-- The file beside the image has another name. -/
theorem stem_append_ne (image : Path) : image.stem ++ "_mask.png" ≠ image.name := by
  intro hsame
  have hchars : Path.stemOf image.name.toList ++ "_mask.png".toList = image.name.toList := by
    have h := congrArg String.toList hsame
    rw [String.toList_append, Path.stem, String.toList_ofList] at h
    exact h
  -- what is behind the stem is nothing, or starts with a point
  rcases eq_stemOf_append image.name.toList with hstem | ⟨ending, hstem⟩
  · have hlength := congrArg List.length (hchars.trans hstem)
    have hnine : "_mask.png".toList.length = 9 := by decide
    rw [List.length_append, hnine] at hlength
    omega
  · have htail := List.append_cancel_left (hchars.trans hstem)
    have hhead : '_' = '.' := congrArg (fun cs => cs.headD ' ') htail
    exact absurd hhead (by decide)

/-- **The file beside the image is another one**, also when directories have been made. -/
theorem outputBeside_ne {image out : Path} (h : outputBeside image = .ok out)
    {tree grown : FileTree} {here l k : Location}
    (hgrown : ∀ l, tree.get? l = some .directory → grown.get? l = some .directory)
    (hl : tree.locate here image = .ok l) (hk : grown.locate here out = .ok k) : k ≠ l := by
  obtain ⟨hnames, rfl⟩ := name_of_outputBeside h
  have hstart :
      FileTree.start here ⟨image.root, image.names.dropLast ++ [image.stem ++ "_mask.png"]⟩
        = FileTree.start here image := rfl
  have hparent : image.parent.names = image.names.dropLast := rfl
  rw [FileTree.locate_eq, FileTree.names_of_ne_nil hnames, FileTree.walk_append] at hl
  rw [FileTree.locate_eq, hstart, ← hparent, FileTree.walk_append] at hk
  -- both paths go through the same directory, and differ in the last name
  obtain ⟨dir, hdir⟩ : ∃ dir, FileTree.walk tree (FileTree.start here image) image.parent.names
      = .ok dir := by
    cases hdir : FileTree.walk tree (FileTree.start here image) image.parent.names with
    | ok dir => exact ⟨dir, rfl⟩
    | error e =>
        rw [hdir] at hl
        cases hl
  rw [hdir] at hl
  rw [FileTree.walk_mono hgrown hdir] at hk
  obtain ⟨-, -, hl⟩ := FileTree.walk_cons_ok hl
  obtain ⟨-, -, hk⟩ := FileTree.walk_cons_ok hk
  cases hl
  cases hk
  -- the ending keeps the new name from being the two dots
  have hout : image.stem ++ "_mask.png" ≠ ".." := by
    intro hdots
    have hlength := congrArg (fun n => n.toList.length) hdots
    have hnine : "_mask.png".toList.length = 9 := by decide
    have htwo : "..".toList.length = 2 := by decide
    simp only [String.toList_append, List.length_append, hnine, htwo] at hlength
    omega
  rw [FileTree.towards, if_neg hout, FileTree.towards]
  split
  · -- two dots lead up
    intro hsame
    have hlength := congrArg List.length hsame
    rw [List.length_append, List.length_dropLast, List.length_singleton] at hlength
    omega
  · intro hsame
    exact stem_append_ne image (List.singleton_inj.mp (List.append_cancel_left hsame))

/-- **The image is kept** where no file is asked for. -/
theorem image_kept {image out : Path} {tree u v : FileTree} {here l : Location} {c : Content}
    {w : Image} (hgoes : GoesTo args image out) (hbeside : (args.get "out").isTruthy = false)
    (hkept : ∀ l x, tree.get? l = some x → u.get? l = some x)
    (hwrite : u.write here out (.picture w) = .ok v) (hl : tree.locate here image = .ok l)
    (hc : tree.get? l = some (.file c)) : v.get? l = some (.file c) := by
  rcases hgoes with ⟨file, hfile, hne, -⟩ | ⟨-, hout⟩
  · -- an argument that counts as none would be an empty text
    rw [hfile] at hbeside
    simp only [Datum.isTruthy, Bool.not_eq_false', String.isEmpty_iff] at hbeside
    exact absurd hbeside hne
  · obtain ⟨k, hk, -, rfl⟩ := FileTree.write_ok hwrite
    have hkl : k ≠ l := outputBeside_ne hout (fun l hdir => hkept l _ hdir) hl hk
    rw [FileTree.get?_put_ne _ hkl.symm]
    exact hkept l _ hc

/-- **What delivering does** where a picture in the usual format is asked for: directories are made,
and then the picture is written, or nothing. -/
theorem deliver_cases {out : Path} (w : Image) (t : Session)
    (hname : ∃ base, out.name = base ++ ".png") :
    ∃ u : FileTree, (∀ l e, t.host.tree.get? l = some e → u.get? l = some e) ∧
      ((∃ v, ∃ t' : Session, u.write t.host.here out (.picture w) = .ok v ∧
        t'.host = { t.host with tree := v } ∧ (deliver out w).run t = (.ok 0, t')) ∨
      ∃ e, ∃ t' : Session, t'.host = { t.host with tree := u } ∧
        (deliver out w).run t = (.error e, t')) := by
  have hgrown := Host.grown_run_makeDirectories t.host out.parent
  have hhost := Host.host_run_makeDirectories t.host out.parent
  refine ⟨((Host.makeDirectories out.parent).run t.host).2.tree, hgrown.kept, ?_⟩
  generalize ((Host.makeDirectories out.parent).run t.host).2.tree = u at hhost
  have hmake : (Session.onHost (Host.makeDirectories out.parent)).run t
      = (((Host.makeDirectories out.parent).run t.host).1,
        { t with host := { t.host with tree := u } }) := by
    rw [← hhost]
    rfl
  unfold deliver
  cases hmade : ((Host.makeDirectories out.parent).run t.host).1 with
  | error e =>
      rw [hmade] at hmake
      exact Or.inr ⟨e, _, rfl, run_bind_error hmake⟩
  | ok _ =>
      rw [hmade] at hmake
      rw [run_bind_ok hmake]
      have honHost : ∀ {o h}, (w.save out).run { t.host with tree := u } = (o, h) →
          (Session.onHost (w.save out)).run { t with host := { t.host with tree := u } }
            = (o, { t with host := h }) := by
        intro o h hrun
        show (((w.save out).run { t.host with tree := u }).1,
          { t with host := ((w.save out).run { t.host with tree := u }).2 }) = _
        rw [hrun]
      -- saving is writing, unless the picture cannot be saved at all
      rcases Image.run_save_png hname with hsave | hsave
      · rcases Host.run_write { t.host with tree := u } out (.picture w) with
          ⟨v, hwrite, hrun⟩ | ⟨e, hrun⟩
        · refine Or.inl ⟨v, _, hwrite, ?_, run_bind_ok (honHost (hsave.trans hrun))⟩
          rfl
        · exact Or.inr ⟨e, _, rfl, run_bind_error (honHost (hsave.trans hrun))⟩
      · exact Or.inr ⟨_, _, rfl, run_bind_error (honHost hsave)⟩

/-! ## A whole run -/

/-- The result goes to a picture in the usual format where none in another one is asked for. -/
theorem png_of_goesTo (hpng : AsksPng args) {image out : Path} (h : GoesTo args image out) :
    ∃ base, out.name = base ++ ".png" := by
  rcases h with ⟨file, hfile, hne, rfl⟩ | ⟨-, hbeside⟩
  · exact hpng file hfile hne
  · obtain ⟨-, rfl⟩ := name_of_outputBeside hbeside
    refine ⟨image.stem ++ "_mask", ?_⟩
    have hlast : Path.name ⟨image.root, image.names.dropLast ++ [image.stem ++ "_mask.png"]⟩
        = image.stem ++ "_mask.png" := by
      unfold Path.name
      rw [List.getLast?_concat]
      rfl
    rw [hlast, String.append_assoc]
    congr 1

/-- **All that a run can do**: to fail and change nothing, or to make directories and then write
what the arguments and the files say, or fail to. Where the streams were has no part in it. -/
theorem run_cases {words : List String} (hparse : parse words = .ok args) (hpng : AsksPng args)
    (s : Session) :
    ∃ (o : Outcome Nat) (tree : FileTree),
      (∀ r, ∃ t : Session, t.host = { s.host with tree := tree } ∧
        (run args).run { s with streams := r } = (o, t)) ∧
      ((∃ e, o = .error e ∧ tree = s.host.tree) ∨
        ∃ (seed : Int) (j : Material args s.host) (out : Path) (w : Image) (u : FileTree),
          IsSeed args s seed ∧ GoesTo args (.ofString j.imageFile) out ∧
          j.Shown (.ofLowWord seed) w ∧
          (∀ l x, s.host.tree.get? l = some x → u.get? l = some x) ∧
          ((o = .ok 0 ∧ u.write s.host.here out (.picture w) = .ok tree) ∨
            ∃ e, o = .error e ∧ tree = u)) := by
  -- the run is a start, which seeds, and a finish, which draws and delivers
  rcases start_cases args s with ⟨seed, t, hseed, hhost, hstreams, hrun⟩ | ⟨e, t, hhost, hrun⟩
  · have hfinish := finish_cases hparse t
    rw [hhost, hstreams] at hfinish
    rcases hfinish with ⟨e, t', ht', hfails⟩ | ⟨j, out, w, t', hgoes, hshown, ht', hdelivers⟩
    · exact ⟨.error e, s.host.tree, fun r => ⟨t', ht', (hrun r).trans hfails⟩,
        Or.inl ⟨e, rfl, rfl⟩⟩
    · obtain ⟨u, hkept, hend⟩ := deliver_cases w t' (png_of_goesTo hpng hgoes)
      rw [ht'] at hkept hend
      rcases hend with ⟨v, t'', hwrite, ht'', hdone⟩ | ⟨e, t'', ht'', hfails⟩
      · exact ⟨.ok 0, v, fun r => ⟨t'', ht'', (hrun r).trans (hdelivers.trans hdone)⟩,
          Or.inr ⟨seed, j, out, w, u, hseed, hgoes, hshown, hkept, Or.inl ⟨rfl, hwrite⟩⟩⟩
      · exact ⟨.error e, u, fun r => ⟨t'', ht'', (hrun r).trans (hdelivers.trans hfails)⟩,
          Or.inr ⟨seed, j, out, w, u, hseed, hgoes, hshown, hkept, Or.inr ⟨e, rfl, rfl⟩⟩⟩
  · refine ⟨.error e, s.host.tree, fun r => ?_, Or.inl ⟨e, rfl, rfl⟩⟩
    obtain ⟨r', hr'⟩ := hrun r
    exact ⟨{ t with streams := r' }, hhost, hr'⟩

/-- **A run that has all it needs** comes to the writing. -/
theorem run_of_material {d : Datum} {seed : Int} {out : Path}
    (hchosen : (chooseSeed args).run s = (.ok d, t)) (hd : Streams.seedOf d = .ok seed)
    (harray : Streams.isArraySeed seed = true) (j : Material args s.host)
    (hgoes : GoesTo args (.ofString j.imageFile) out) :
    ∃ w t', t'.host = s.host ∧ (run args).run s = (deliver out w).run t' := by
  have hhost : t.host = s.host :=
    (congrArg (fun r => r.2.host) hchosen).symm.trans (leavesHost_chooseSeed args s)
  let seeded : Session := { t with streams := ⟨.ofInt seed, .ofLowWord seed, .ofLowWord seed⟩ }
  obtain ⟨w, r, -, hfinish⟩ :=
    finish_of_material (show seeded.host = s.host from hhost) j hgoes
  refine ⟨w, { seeded with streams := r }, hhost, ?_⟩
  rw [run_eq, run_bind_ok hchosen, run_bind_ok (Session.run_seed hd harray t)]
  exact hfinish

/-- **A run** that succeeds has written what the arguments and the files show, in colours from the
seed. One that fails changed no file unless all was in order up to the writing. Where the streams
were has no part in it, and an image is not written over where no file is asked for. -/
theorem run_shown {words : List String} (hparse : parse words = .ok args) (hpng : AsksPng args)
    (s : Session) :
    (∀ code, ((run args).run s).1 = .ok code → code = 0 ∧
      ∃ (seed : Int) (j : Material args s.host) (out : Path) (w : Image),
        IsSeed args s seed ∧ GoesTo args (.ofString j.imageFile) out ∧
        j.Shown (.ofLowWord seed) w ∧
        ((run args).run s).2.host.tree.read s.host.here out = .ok (.picture w)) ∧
    (∀ e, ((run args).run s).1 = .error e →
      ((run args).run s).2.host.tree = s.host.tree ∨
        Nonempty (Material args s.host) ∧
          ∀ l x, s.host.tree.get? l = some x → ((run args).run s).2.host.tree.get? l = some x) ∧
    (∀ r, ((run args).run { s with streams := r }).1 = ((run args).run s).1 ∧
      ((run args).run { s with streams := r }).2.host = ((run args).run s).2.host) ∧
    ∀ file l c, (args.get "out").isTruthy = false → args.get "image" = .text file →
      s.host.tree.locate s.host.here (.ofString file) = .ok l →
      s.host.tree.get? l = some (.file c) →
      ((run args).run s).2.host.tree.get? l = some (.file c) := by
  obtain ⟨o, tree, hrun, hcases⟩ := run_cases hparse hpng s
  obtain ⟨t, ht, hs⟩ := hrun s.streams
  have hs : (run args).run s = (o, t) := hs
  have htree : t.host.tree = tree := by rw [ht]
  rw [hs]
  refine ⟨fun code hcode => ?_, fun e he => ?_, fun r => ?_, fun file l c hbeside hfile hl hc => ?_⟩
  · obtain rfl : o = .ok code := hcode
    rcases hcases with ⟨e, hfailed, -⟩ | ⟨seed, j, out, w, u, hseed, hgoes, hshown, -, hend⟩
    · cases hfailed
    · rcases hend with ⟨hzero, hwrite⟩ | ⟨e, hfailed, -⟩
      · refine ⟨Except.ok.inj hzero, seed, j, out, w, hseed, hgoes, hshown, ?_⟩
        rw [htree]
        exact FileTree.read_of_write hwrite
      · cases hfailed
  · -- a run fails before it touches a file, or once there is material for a picture
    obtain rfl : o = .error e := he
    rw [htree]
    rcases hcases with ⟨e, -, hsame⟩ | ⟨seed, j, out, w, u, -, -, -, hkept, hend⟩
    · exact Or.inl hsame
    · rcases hend with ⟨hzero, -⟩ | ⟨e, -, rfl⟩
      · cases hzero
      · exact Or.inr ⟨⟨j⟩, hkept⟩
  · obtain ⟨t', ht', hr⟩ := hrun r
    rw [hr]
    exact ⟨rfl, ht'.trans ht.symm⟩
  · rw [htree]
    rcases hcases with ⟨e, -, rfl⟩ | ⟨seed, j, out, w, u, -, hgoes, -, hkept, hend⟩
    · exact hc
    · rcases hend with ⟨-, hwrite⟩ | ⟨e, -, rfl⟩
      · -- the picture is written beside the image
        obtain rfl : file = j.imageFile := Datum.text.inj (hfile.symm.trans j.imageFile_asked)
        exact image_kept hgoes hbeside hkept hwrite hl hc
      · exact hkept l _ hc

/-! One run: two pixels, one for each of two classes, and a background for the first. -/

def sceneImage : Image := .blank .grey 2 1 ⟨10, 10, 10, 255⟩

def sceneMaskText : String := "\x7b\"mask\": [[0, 1]]\x7d"

/-- A machine with an image, a mask and the names of its classes, and no settings file. -/
def sceneSession : Session :=
  .start (.offline ⟨[(["scene.png"], .file (.picture sceneImage)),
    (["mask.json"], .file (.bytes (Bytes.ofString sceneMaskText))),
    (["classes.txt"], .file (.bytes (Bytes.ofString "sky\nhill\n")))]⟩)

def sceneWords : List String :=
  ["--image", "scene.png", "--mask", "mask.json", "--classes", "classes.txt", "--seed", "7",
    "--background", "00ff00"]

def sceneArgs : Datum := (parse sceneWords).toOption.getD .null

theorem scene_mask : ∃ m, Mask.ofJson ["sky", "hill"] sceneMaskText = .ok m ∧
    m.size = (2, 1) ∧ m.cells.get? 0 0 = some 0 := by
  have hcomputed : ((Mask.ofJson ["sky", "hill"] sceneMaskText).toOption.map
      fun m => (m.size, m.cells.get? 0 0)) = some ((2, 1), some 0) := by decide +kernel
  cases hm : Mask.ofJson ["sky", "hill"] sceneMaskText with
  | error e =>
      rw [hm] at hcomputed
      cases hcomputed
  | ok m =>
      rw [hm] at hcomputed
      obtain ⟨hsize, hcell⟩ := Prod.mk.inj (Option.some.inj hcomputed)
      exact ⟨m, rfl, hsize, hcell⟩

theorem scene_material : ∃ j : Material sceneArgs sceneSession.host, j.imageFile = "scene.png" := by
  obtain ⟨m, hm, hsize, -⟩ := scene_mask
  exact ⟨{
    imageFile := "scene.png"
    image := sceneImage
    classes := ["sky", "hill"]
    mask := m
    alpha := 128
    background := some 0xff00ff00
    imageFile_asked := rfl
    image_read := rfl
    classes_read := ⟨"classes.txt", "sky\nhill\n", rfl, rfl, by decide +kernel⟩
    mask_read := ⟨"mask.json", sceneMaskText, rfl, rfl, hm⟩
    size_eq := hsize.symm
    alpha_asked := ⟨0.5, rfl, rfl⟩
    background_asked := rfl }, rfl⟩

/-- The material of this run is in its files and arguments. -/
theorem scene_material_unique (j : Material sceneArgs sceneSession.host) :
    j.imageFile = "scene.png" ∧ j.image = sceneImage ∧ j.background = some 0xff00ff00 ∧
      j.mask.cells.get? 0 0 = some 0 := by
  have hfile : j.imageFile = "scene.png" := (Datum.text.inj j.imageFile_asked).symm
  have himage : j.image = sceneImage := by
    have hread := j.image_read
    rw [hfile] at hread
    exact (Content.picture.inj (Except.ok.inj hread)).symm
  have hbackground : j.background = some 0xff00ff00 := by
    have hasked : Datum.int 0xff00ff00 = j.background.elim .null .int := j.background_asked
    cases hb : j.background with
    | none =>
        rw [hb] at hasked
        cases hasked
    | some i =>
        rw [hb] at hasked
        rw [← Datum.int.inj hasked]
  have hclasses : j.classes = ["sky", "hill"] := by
    obtain ⟨file, text, hasked, hread, hnames⟩ := j.classes_read
    obtain rfl : "classes.txt" = file := Datum.text.inj hasked
    obtain rfl : "sky\nhill\n" = text := Except.ok.inj hread
    rw [hnames]
    decide +kernel
  have hcell : j.mask.cells.get? 0 0 = some 0 := by
    obtain ⟨file, text, hasked, hread, hjson⟩ := j.mask_read
    obtain rfl : "mask.json" = file := Datum.text.inj hasked
    obtain rfl : sceneMaskText = text := Except.ok.inj hread
    obtain ⟨m, hm, -, hcell⟩ := scene_mask
    rw [hclasses, hm] at hjson
    rw [← Except.ok.inj hjson]
    exact hcell
  exact ⟨hfile, himage, hbackground, hcell⟩

/-- The run succeeds: the picture lies beside the image, with the background in place of the first
class, and the image is still there. -/
theorem run_shown_scene :
    parse sceneWords = .ok sceneArgs ∧ AsksPng sceneArgs ∧
      ((run sceneArgs).run sceneSession).1 = .ok 0 ∧
      (∃ w, ((run sceneArgs).run sceneSession).2.host.tree.read [] (.ofString "scene_mask.png")
          = .ok (.picture w) ∧
        w.mode = .rgba ∧ w.size = (2, 1) ∧ w.pixels.get? 0 0 = some ⟨0, 255, 0, 255⟩) ∧
      ((run sceneArgs).run sceneSession).2.host.tree.get? ["scene.png"]
        = some (.file (.picture sceneImage)) := by
  have hparse : parse sceneWords = .ok sceneArgs := rfl
  have hout : sceneArgs.get "out" = .null := rfl
  have hpng : AsksPng sceneArgs := by
    intro file hfile
    rw [hout] at hfile
    cases hfile
  have hbeside : outputBeside (.ofString "scene.png") = .ok (.ofString "scene_mask.png") := rfl
  have hcode : ((run sceneArgs).run sceneSession).1 = .ok 0 := by
    -- the files are gathered and the picture is drawn by the lemmas; only the writing is evaluated
    obtain ⟨t, hchosen⟩ : ∃ t, (chooseSeed sceneArgs).run sceneSession = (.ok (.int 7), t) :=
      ⟨_, rfl⟩
    obtain ⟨j, hfile⟩ := scene_material
    have hgoes : GoesTo sceneArgs (.ofString j.imageFile) (.ofString "scene_mask.png") := by
      rw [hfile]
      exact Or.inr ⟨rfl, hbeside⟩
    obtain ⟨w, t', ht', hrun⟩ := run_of_material hchosen rfl (by decide) j hgoes
    have hname : Image.alphaUse? (Path.ofString "scene_mask.png").name = some .kept := by
      decide +kernel
    have hsave : w.save (.ofString "scene_mask.png")
        = Host.write (.ofString "scene_mask.png") (.picture w) := by
      unfold Image.save
      rw [hname]
    rw [hrun]
    unfold deliver
    rw [hsave]
    obtain ⟨host, _, _, _, _, _, _, _⟩ := t'
    obtain rfl : host = sceneSession.host := ht'
    rfl
  -- what the picture shows follows from the general theorem
  obtain ⟨hdone, -, -, hkept⟩ := run_shown hparse hpng sceneSession
  obtain ⟨-, seed, j, out, w, -, hgoes, hshown, hread⟩ := hdone 0 hcode
  obtain ⟨hfile, himage, hbackground, hcell⟩ := scene_material_unique j
  -- no file is asked for, so the picture is beside the image
  have hplace : out = .ofString "scene_mask.png" := by
    rw [hfile] at hgoes
    rcases hgoes with ⟨file, hasked, -⟩ | ⟨-, hto⟩
    · rw [hout] at hasked
      cases hasked
    · exact (Except.ok.inj (hbeside.symm.trans hto)).symm
  have hpixel := hshown.pixel 0 0 0 ⟨10, 10, 10, 255⟩ hcell
    (by rw [himage]; decide +kernel)
  rw [hbackground] at hpixel
  refine ⟨hparse, hpng, hcode, ⟨w, ?_, hshown.mode, ?_, hpixel⟩, ?_⟩
  · rw [← hplace]
    exact hread
  · rw [hshown.size, himage]
    rfl
  · exact hkept "scene.png" ["scene.png"] (.picture sceneImage) (by rw [hout]; rfl) rfl rfl rfl

end Perception.RenderMask
