import Perception.Session

set_option autoImplicit false

/-! # Options of batching

How the samples of a dataset are put into batches, as a caller asks for it (`BatchOptions`), and
what is left open filled in from what suits the machine (`Platform`). The values are loose: only the
size of batches is looked at when options are made.
-/

namespace Perception

/-- What a caller asks for; what is left open is nothing. -/
structure BatchOptions where
  batchSize : Datum
  shuffle : Datum
  dropLast : Datum
  seed : Datum
  workers : Datum
  pinMemory : Datum

namespace BatchOptions

def names : List String :=
  ["batch_size", "shuffle", "drop_last", "seed", "num_workers", "pin_memory"]

/-- Is a value less than one? Only numbers can be. -/
def belowOne (d : Datum) : Outcome Bool :=
  match d with
  | .bool b => .ok !b
  | .int i => .ok (i < 1)
  | .float x => .ok (x < 1.0)
  | _ => .error (.plain .type)

def make (o : BatchOptions) : Outcome BatchOptions := do
  if ← belowOne o.batchSize then throw (.batchSize o.batchSize.shown)
  return o

/-- Options from arguments by name. The size of batches is that of the settings unless given. -/
def ofArguments (args : Datum) : SessionM BatchOptions := do
  let known : Datum → Bool
    | .text k => names.contains k
    | _ => false
  if args.entries.any fun (k, _) => !known k then throw (.plain .type)
  let size ← match args.find? "batch_size" with
    | some d => pure d
    | none => Session.setting Settings.batchSize
  Session.ofOutcome (make
    ⟨size, (args.find? "shuffle").getD (.bool false), (args.find? "drop_last").getD (.bool false),
      args.get "seed", args.get "num_workers", args.get "pin_memory"⟩)

end BatchOptions

/-- A machine: its system, its kind of processor, and how many of them it has, if that is known. -/
structure Platform where
  system : String
  machine : String
  cpus : Option Nat
  hasCuda : Bool

/-- What suits a machine: how many workers read samples, whether memory is pinned, and why. -/
structure LoaderDefaults where
  workers : Nat
  pinMemory : Bool
  reason : String
  deriving DecidableEq, Repr

namespace Platform

def isMac (p : Platform) : Bool := p.system = "Darwin"

def isLinux (p : Platform) : Bool := p.system = "Linux"

def isWindows (p : Platform) : Bool := p.system = "Windows"

/-- Is it one of the machines on which a library must be allowed to be loaded twice? -/
def isAppleSilicon (p : Platform) : Bool := p.isMac && p.machine = "arm64"

/-- The variable that allows loading a library twice, as it is after the machine has been looked at:
it is set where that is needed, unless it has a value. -/
def duplicateLibrary (p : Platform) (before : Option String) : Option String :=
  if p.isAppleSilicon then some (before.getD "TRUE") else before

/-- The number of processors, one if it is unknown. -/
def processors (p : Platform) : Nat :=
  match p.cpus with
  | some n => if n = 0 then 1 else n
  | none => 1

def loaderDefaults (p : Platform) : LoaderDefaults :=
  if p.isLinux then ⟨min 4 p.processors, true, "Linux multiprocessing support"⟩
  else if p.isWindows then ⟨2, false, "Windows multiprocessing compatibility"⟩
  else ⟨0, false, "single-process loading"⟩

/-- The account of the machine that goes into the journal. -/
def report (p : Platform) : List String :=
  [s!"Platform: {p.system} ({p.machine})",
    s!"Data loader config: {p.loaderDefaults.workers} workers ({p.loaderDefaults.reason})"]

theorem workers_le_four (p : Platform) : p.loaderDefaults.workers ≤ 4 := by
  unfold loaderDefaults
  split
  · exact Nat.min_le_left _ _
  · split <;> simp

end Platform

/-- Options with nothing left open but the seed. -/
structure LoaderOptions where
  batchSize : Datum
  shuffle : Datum
  dropLast : Datum
  workers : Datum
  pinMemory : Datum
  /-- The seed of a generator of the loader's own. -/
  seed : Option Int

namespace LoaderOptions

/-- The seed that a loose value names; truth values are none. -/
def seedOf (d : Datum) : Outcome (Option Int) :=
  match d with
  | .null => .ok none
  | .int i => if Random.Streams.isTensorSeed i then .ok (some i) else .error (.plain .value)
  | _ => .error (.plain .runtime)

def ofOptions (p : Platform) (o : BatchOptions) : Outcome LoaderOptions := do
  let defaults := p.loaderDefaults
  let workers := match o.workers with
    | .null => .int defaults.workers
    | d => d
  let pin := match o.pinMemory with
    | .null => .bool (defaults.pinMemory && p.hasCuda)
    | d => d
  return ⟨o.batchSize, o.shuffle, o.dropLast, workers, pin, ← seedOf o.seed⟩

def seedsWorkers (o : LoaderOptions) : Outcome Bool :=
  match o.seed, o.workers with
  | none, _ => .ok false
  | _, .int n => .ok (0 < n)
  | _, .bool b => .ok b
  | _, .float x => .ok (0.0 < x)
  | _, _ => .error (.plain .type)

end LoaderOptions

end Perception
