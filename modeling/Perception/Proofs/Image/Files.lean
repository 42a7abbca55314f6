import Perception.Image.Save
import Perception.Image.Source
import Perception.Proofs.Files.Reading
import Perception.Proofs.Text.Cut

set_option autoImplicit false

/-! # Pictures in files

A picture that is loaded is the one in the file (`Image.load_eq_ok`). Under a name that ends in
`.png` a picture is written as it is, or not at all where the name has nothing but points in front
of that (`Image.run_save_png`).
-/

namespace Perception

namespace Image

/-! ## Loading -/

theorem leaves_load (p : Path) : Outcome.Leaves id (load p) := by
  unfold load
  refine (Host.leaves_isFile p).bind fun found => ?_
  cases found
  -- with or without the failure before it, what follows is reading
  case' false => refine (Outcome.leaves_throw _ _).bind fun _ => ?_
  all_goals
    refine (Host.leaves_read p).bind fun c => ?_
    cases ofContent c with
    | error e => exact Outcome.leaves_throw _ _
    | ok im => exact Outcome.leaves_pure _ _

/-- **A picture that is loaded** is the one in the file. -/
theorem load_eq_ok {h : Host} {p : Path} {im : Image} :
    ((load p).run h).1 = .ok im ↔ ((Host.read p).run h).1 = .ok (.picture im) := by
  unfold load
  constructor
  · intro hload
    have hrun := (leaves_load p).run_eq h
    rw [load, hload] at hrun
    obtain ⟨found, -, hrun⟩ := (Host.leaves_isFile p).exists_of_bind_ok hrun
    cases found with
    | false =>
        obtain ⟨_, _, hthrow, -⟩ := Outcome.exists_of_run_bind_ok hrun
        cases hthrow
    | true =>
        obtain ⟨c, hc, hrun⟩ := (Host.leaves_read p).exists_of_bind_ok hrun
        cases c with
        | picture im' =>
            obtain rfl := Except.ok.inj (congrArg Prod.fst hrun)
            exact hc
        | bytes bs => cases congrArg Prod.fst hrun
        | model m => cases congrArg Prod.fst hrun
  · intro hread
    obtain ⟨hnul, htree⟩ := Host.run_read_eq_ok.mp hread
    have hfound : (Host.isFile p).run h = (.ok true, h) := by
      rw [Host.run_isFile h p hnul, FileTree.isFile_of_read htree]
      rfl
    have hrun := (Host.leaves_read p).run_eq h
    rw [hread] at hrun
    rw [Outcome.run_bind_ok hfound]
    show (((Host.read p) >>= fun c => _ : HostM Image).run h).1 = _
    rw [Outcome.run_bind_ok hrun]
    rfl

/-! ## Saving -/

/-- A name that ends in `.png` has that ending, or none if only points are in front of it. -/
theorem endingOf_png (base : String) :
    endingOf (base ++ ".png") = ".png" ∨ endingOf (base ++ ".png") = "" := by
  have hpng : ".png".toList = '.' :: ['p', 'n', 'g'] := by decide
  have hplain : ∀ a ∈ ['p', 'n', 'g'], decide (a = '.') = false := by
    simp only [List.mem_cons, List.not_mem_nil, or_false]
    rintro a (rfl | rfl | rfl) <;> rfl
  have hlower : (String.ofList ['p', 'n', 'g']).toLower = "png" := by
    show (String.ofList ['p', 'n', 'g']).map Char.toLower = "png"
    rw [← String.toList_inj, String.toList_map, String.toList_ofList]
    decide
  unfold endingOf
  rw [String.toList_append, hpng, List.dropWhile_append]
  by_cases hpoints : (List.dropWhile (fun c => decide (c = '.')) base.toList).isEmpty = true
  · right
    rw [if_pos hpoints]
    decide
  · left
    rw [if_neg hpoints, Text.cutAtLast?_append (by decide) hplain]
    show "." ++ (String.ofList ['p', 'n', 'g']).toLower = ".png"
    rw [hlower]
    decide

variable {h : Host} {out : Path} {w : Image}

/-- **A name that ends in `.png`** has a picture written as it is, or refused. -/
theorem run_save_png (hname : ∃ base, out.name = base ++ ".png") :
    (w.save out).run h = (Host.write out (.picture w)).run h ∨
      (w.save out).run h = (.error (.plain .value), h) := by
  obtain ⟨base, hbase⟩ := hname
  unfold save
  rcases endingOf_png base with hending | hending
  · have huse : alphaUse? out.name = some .kept := by
      rw [alphaUse?, hbase, hending]
      decide
    rw [huse]
    exact Or.inl rfl
  · have huse : alphaUse? out.name = none := by
      rw [alphaUse?, hbase, hending]
      decide
    rw [huse]
    exact Or.inr rfl

end Image

end Perception
