import Perception.Web.Download

set_option autoImplicit false

/-! # Downloads to one place

Several downloads may write to the same output, each from its own address and with its own view of
the web, all on the same files. They take turns in any order (`Crew.run`), one step of
`Download.step` at a time; one that gets no further turn has stopped for good.
-/

namespace Perception

/-- A download under way. The files of its host are those of its crew. -/
structure Worker where
  url : String
  timeout : Datum
  host : Host
  phase : Download.Phase

/-- Downloads under way and the files they share. -/
structure Crew (ι : Type) where
  tree : FileTree
  workers : ι → Worker

namespace Crew

variable {ι : Type}

def phase (c : Crew ι) (i : ι) : Download.Phase := (c.workers i).phase

def answer (c : Crew ι) (i : ι) : Answer := (c.workers i).host.web (c.workers i).url

def bar (c : Crew ι) (i : ι) : ProgressBar := (c.workers i).host.bar

variable (output : Path) (here : Location)

def job (c : Crew ι) (i : ι) : Download.Job := ⟨(c.workers i).url, output, (c.workers i).timeout⟩

def host (c : Crew ι) (i : ι) : Host := { (c.workers i).host with tree := c.tree, here := here }

variable [DecidableEq ι]

def step (c : Crew ι) (i : ι) : Crew ι :=
  let (h, phase) := Download.step (c.job output i) (c.host here i) (c.phase i)
  ⟨h.tree, fun j => if j = i then { c.workers i with host := h, phase := phase } else c.workers j⟩

/-- Workers make steps in the order of a schedule. -/
def run (c : Crew ι) (schedule : List ι) : Crew ι := schedule.foldl (step output here) c

end Crew

end Perception
