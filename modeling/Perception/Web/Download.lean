import Perception.Web.Host

set_option autoImplicit false

/-! # Downloads

A download writes the body of a reply to a temporary directory next to its target and moves it into
place once it is complete. It is a machine whose state is a phase (`Download.Phase`) and the host;
`Download.step` makes one step and `download` runs it to its end. So the target is either as it was
or complete at every moment, whichever step fails and whatever other downloads do in between.
-/

namespace Perception

namespace Download

def blockSize : Nat := 8192

def source : String := "modalkit.core.io"

/-- What to download, where to, and how long to wait. -/
structure Job where
  url : String
  output : Path
  timeout : Datum

/-- What a download does next. `temp` is its temporary directory. -/
inductive Phase
  | makeParents
  | makeTemp
  | request (temp : Location)
  /-- Write the blocks that are left; afterwards the transfer fails if `failing` is set. -/
  | write (temp : Location) (blocks : List Bytes) (failing : Option Failure)
  | move (temp : Location)
  | removeTemp (temp : Location) (result : Outcome Path)
  | done (result : Outcome Path)

def tempPath (temp : Location) (job : Job) : Path :=
  ⟨.top, temp ++ [job.output.name]⟩

def openTemp (h : Host) (temp : Location) (job : Job) : Except SystemCause Host :=
  if job.output.name = "" then .error .isDirectory
  else
    match h.tree.write h.here (tempPath temp job) (.bytes []) with
    | .ok tree => .ok { h with tree := tree }
    | .error e => .error e

def append (t : FileTree) (l : Location) (bs : Bytes) : FileTree :=
  match t.get? l with
  | some (.file (.bytes old)) => t.put l (.file (.bytes (old ++ bs)))
  | _ => t

def finish (h : Host) (temp : Location) (result : Outcome Path) : Host × Phase :=
  (h, .removeTemp temp result)

/-- Moves the written file to its place. What stands there is replaced, but a directory takes the
file in under its own name unless it has such an entry already. -/
def moveInto (h : Host) (temp : Location) (job : Job) : Host × Outcome Path :=
  let here := temp ++ [job.output.name]
  match h.tree.get? here, h.tree.locate h.here job.output with
  | some e, .ok target =>
      if h.tree.isDirectoryAt target then
        let inside := target ++ [job.output.name]
        match h.tree.get? inside with
        | some _ => (h, .error (.plain .moveClash))
        | none => ({ h with tree := (h.tree.put inside e).erase here }, .ok job.output)
      else ({ h with tree := (h.tree.put target e).erase here }, .ok job.output)
  | none, _ => (h, .error (.system .missing (tempPath temp job).toString))
  | _, .error e => (h, .error (.system e job.output.toString))

/-- Why a reply is not taken, if it is not: for its status, for the length that it announces, or since
no file can have the name of the output. -/
def refusal? (job : Job) (bar : ProgressBar) (r : Reply) : Option Failure :=
  if r.status = 404 then some (.remoteMissing job.url)
  else match r.statusError? job.url with
    | some text => some (.downloadFailed job.url text)
    | none =>
        match r.length? with
        | none => some (.plain .value)
        | some total =>
            match bar total 0 with
            | some f => some f
            | none => if job.output.hasNul then some (.plain .value) else none

/-- The blocks that are written when blocks arrive one by one, and what the transfer fails with, if it
does. The bar moves before a block is written; `shown` is how far it has got. -/
def transfer (bar : Nat → Option Failure) (ending : Option Failure) :
    Nat → List Bytes → List Bytes × Option Failure
  | _, [] => ([], ending)
  | shown, b :: bs =>
      match bar (shown + b.length) with
      | some f => ([], some f)
      | none =>
          let (written, failing) := transfer bar ending (shown + b.length) bs
          (b :: written, failing)

/-- What of a reply is written, and what its transfer fails with, if it does. -/
def sending (job : Job) (bar : ProgressBar) (r : Reply) : List Bytes × Option Failure :=
  transfer (bar (r.length?.getD 0)) (r.breaksAfter.map fun b => b.2.ofDownload job.url) 0
    (blocks blockSize r.arriving)

def step (job : Job) (h : Host) : Phase → Host × Phase
  | .makeParents =>
      match (Host.makeDirectories job.output.parent).run h with
      | (.ok (), h) => (h, .makeTemp)
      | (.error e, h) => (h, .done (.error e))
  | .makeTemp =>
      match h.tree.locate h.here job.output.parent with
      | .error e => (h, .done (.error (.system e job.output.parent.toString)))
      | .ok parent =>
          let temp := parent ++ [h.tree.freshName parent job.output.name]
          ({ h with tree := h.tree.put temp .directory }, .request temp)
  | .request temp =>
      let h := { h with journal := h.journal ++
        [Note.mk .info source s!"Downloading {job.url} to {job.output}"] }
      match (Host.ask job.url true job.timeout).run h with
      | (.error e, h) => finish h temp (.error e)
      | (.ok (.failure m), h) => finish h temp (.error (m.ofDownload job.url))
      | (.ok (.reply r), h) =>
          match refusal? job h.bar r with
          | some f => finish h.closeLast temp (.error f)
          | none =>
              match openTemp h temp job with
              | .error e => finish h.closeLast temp (.error (.system e job.output.toString))
              | .ok h =>
                  let (written, failing) := sending job h.bar r
                  (h, .write temp written failing)
  | .write temp (b :: bs) failing =>
      ({ h with tree := append h.tree (temp ++ [job.output.name]) b }, .write temp bs failing)
  | .write temp [] (some f) => finish h.closeLast temp (.error f)
  | .write temp [] none => (h.closeLast, .move temp)
  | .move temp =>
      let (h, result) := moveInto h temp job
      finish h temp result
  | .removeTemp temp result =>
      ({ h with tree := h.tree.eraseAll temp }, .done result)
  | .done result => (h, .done result)

def run (job : Job) : Nat → Host → Phase → Host × Outcome Path
  | _, h, .done result => (h, result)
  | 0, h, _ => (h, .error (.plain .io))
  | fuel + 1, h, phase =>
      let (h, phase) := step job h phase
      run job fuel h phase

/-- Enough steps for the reply that the web has for an address. -/
def stepsFor (web : Web) (url : String) : Nat :=
  match web url with
  | .reply r => (blocks blockSize r.arriving).length + 8
  | .failure _ => 8

end Download

def download (url : String) (output : Path) (timeout : Datum) : HostM Path := fun h =>
  let (h, result) :=
    Download.run ⟨url, output, timeout⟩ (Download.stepsFor h.web url) h .makeParents
  (result, h)

end Perception
