import Perception.Json.Syntax
import Perception.Text.Quoted
import Perception.Number.Written

set_option autoImplicit false

/-! # Failures

Every way in which an operation of the library can fail, as causes. `Failure.kind` is what a caller
decides by (which failures to catch), `Failure.message` the wording of those that have one of their
own. What reading a file or a value in general may run into is `Failure.plain` with its kind and
`Failure.system` with the file.
-/

namespace Perception

/-- The sorts of failure a caller can tell apart. -/
inductive FailureKind
  | value | type | overflow | divisionByZero | attribute | key | index | runtime | recursion
  | io | notFound | fileExists | isDirectory | notDirectory | permission | connection
  | undecodable | json | unknownPicture | noAudioBackend | argument | unpickling | endOfFile
  | moveClash | absentModule | unfitSignal
  deriving DecidableEq, Repr

def FailureKind.isIO : FailureKind → Bool
  | io | notFound | fileExists | isDirectory | notDirectory | permission | connection
  | unknownPicture | moveClash => true
  | _ => false

def FailureKind.isValue : FailureKind → Bool
  | value | undecodable | json => true
  | _ => false

/-- What the system says of a file it cannot serve. -/
inductive SystemCause
  | missing | exists | isDirectory | notDirectory | denied | nameTooLong | notEmpty
  deriving DecidableEq, Repr

def SystemCause.kind : SystemCause → FailureKind
  | missing => .notFound
  | «exists» => .fileExists
  | isDirectory => .isDirectory
  | notDirectory => .notDirectory
  | denied => .permission
  | nameTooLong => .io
  | notEmpty => .io

def SystemCause.words : SystemCause → String
  | missing => "[Errno 2] No such file or directory"
  | «exists» => "[Errno 17] File exists"
  | isDirectory => "[Errno 21] Is a directory"
  | notDirectory => "[Errno 20] Not a directory"
  | denied => "[Errno 13] Permission denied"
  | nameTooLong => "[Errno 36] File name too long"
  | notEmpty => "[Errno 39] Directory not empty"

/-- A size as width and height. -/
abbrev Size := Nat × Nat

/-- A size or shape as it is shown in a message: a lone extent is followed by a comma. -/
def shapeText : List Nat → String
  | [] => "()"
  | [n] => "(" ++ toString n ++ ",)"
  | ns => "(" ++ ", ".intercalate (ns.map toString) ++ ")"

def sizeText (s : Size) : String := shapeText [s.1, s.2]

inductive Failure
  /-- A failure without words of its own. -/
  | plain (kind : FailureKind)
  /-- The system cannot serve a file. -/
  | system (cause : SystemCause) (path : String)
  | jsonSyntax (fault : Json.Fault)
  -- Pictures
  | pictureMissing (path : String)
  | pixelCount (expected : Int) (got : Nat)
  | pictureShape (shape : List Nat)
  | notDrawable (mode : String)
  | overlaySize (overlay image : Size)
  | regionShape (region : List Nat) (image : Size)
  | fillSize (fill image : Size)
  -- Masks and classifications
  | maskShape (shape : List Nat)
  | maskSort (sort : String)
  | classOutside (value : Int) (row column classes : Nat)
  | noMask
  | transparencyOutside (written : String)
  | maskSize (image mask : Size)
  | nameCount (names probabilities : Nat)
  -- Files behind addresses
  | unreadableUrl (url reason : String)
  | remoteMissing (url : String)
  | downloadFailed (url reason : String)
  /-- A request that failed while the body was read. -/
  | requestFailed (text : String)
  -- Settings
  | settingsMissing (path : String)
  | settingsInvalid
  | batchSize (written : String)
  -- Datasets
  | sampleCount (samples labels : Nat)
  | splitMissing (path : String)
  | channelStats (path : String) (means deviations : Nat)
  -- Models
  | unsupportedModel (id : String) (supported : List String)
  | artifactMissing (path : String)
  | synsetCount (path : String) (listed : Nat) (outputs : Int)
  | rankCount (written : String)
  -- Audio
  | audioShape (shape : List Nat)
  | channelShape (shape : List Nat)
  | audioMissing (path : String)
  | undecodableAudio (source reason : String)
  | noAudioBackend
  -- Colours on the command line
  | colourLength (written : String)
  | colourDigits (written : String)
  deriving DecidableEq

namespace Failure

/-- What a caller decides by. -/
def kind : Failure → FailureKind
  | plain k => k
  | system cause _ => cause.kind
  | jsonSyntax (.malformed ..) => .json
  | jsonSyntax .tooManyDigits => .value
  | jsonSyntax .tooDeep => .recursion
  | pictureMissing _ | remoteMissing _ | settingsMissing _ | splitMissing _ | artifactMissing _
  | audioMissing _ => .notFound
  | unreadableUrl .. | downloadFailed .. | undecodableAudio .. => .io
  | requestFailed _ => .connection
  | noAudioBackend => .noAudioBackend
  | colourLength _ | colourDigits _ => .argument
  | _ => .value

def message : Failure → Option String
  | plain _ => none
  | system .. => none
  | jsonSyntax fault => fault.message
  | pictureMissing path => some s!"Image file not found: {path}"
  | pixelCount expected got => some s!"Expected {Number.intText expected} pixels, got {got}"
  | pictureShape shape => some s!"Expected a 2-D or 3-D image array, got shape {shapeText shape}"
  | notDrawable mode => some s!"Cannot draw on {mode} images; convert to RGB or RGBA first"
  | overlaySize overlay image =>
      some s!"Overlay size {sizeText overlay} does not match image size {sizeText image}"
  | regionShape region image =>
      some s!"Region shape {shapeText region} does not match image size {sizeText image}"
  | fillSize fill image =>
      some s!"Fill image size {sizeText fill} does not match image size {sizeText image}"
  | maskShape shape => some s!"Mask must be a non-empty 2-D grid, got shape {shapeText shape}"
  | maskSort sort => some s!"Mask must hold integer class indices, got {sort}"
  | classOutside value row column classes =>
      some s!"Class index {Number.intText value} at ({row}, {column}) is outside [0, {classes})"
  | noMask => some "JSON does not contain a 'mask' field"
  | transparencyOutside written => some s!"transparency must be in [0, 1], got {written}"
  | maskSize image mask =>
      some s!"Image size {sizeText image} does not match mask size {sizeText mask}"
  | nameCount names probabilities =>
      some s!"Got {names} class names for {probabilities} probabilities"
  | unreadableUrl url reason => some s!"Failed to read {url}: {reason}"
  | remoteMissing url => some s!"Remote file not found: {url}"
  | downloadFailed url reason => some s!"Error downloading {url}: {reason}"
  | requestFailed _ => none
  | settingsMissing path => some s!"Configuration file not found: {path}"
  | settingsInvalid => some "Invalid YAML configuration"
  | batchSize written => some s!"batch_size must be positive, got {written}"
  | sampleCount samples labels => some s!"Got {samples} samples but {labels} labels"
  | splitMissing path => some s!"Split directory not found: {path}"
  | channelStats path means deviations =>
      some s!"Expected 3-channel mean/std in {path}, got {means} and {deviations}"
  | unsupportedModel id supported =>
      some s!"Unsupported model: {id}. Supported models: {Text.quotedList supported}"
  | artifactMissing path => some s!"Artifact file not found: {path}"
  | synsetCount path listed outputs =>
      some s!"{path} lists {listed} classes, model has {Number.intText outputs} outputs"
  | rankCount written => some s!"top_k must be positive, got {written}"
  | audioShape shape => some s!"Audio data must be one-dimensional, got shape {shapeText shape}"
  | channelShape shape =>
      some s!"Expected a 1-D or (channels, samples) array, got shape {shapeText shape}"
  | audioMissing path => some s!"Audio file not found: {path}"
  | undecodableAudio source reason => some s!"Cannot decode audio from {source}: {reason}"
  | noAudioBackend => some "Failed to create AudioFactory!"
  | colourLength written => some s!"Expected RRGGBB or AARRGGBB, got {Text.quoted written}"
  | colourDigits written => some s!"Invalid hex color: {Text.quoted written}"

/-- The failure as a line of a report shows it. -/
def report : Failure → String
  | system cause path => s!"{cause.words}: {Text.quoted path}"
  | requestFailed text => text
  | f => f.message.getD ""

end Failure

abbrev Outcome := Except Failure

end Perception
