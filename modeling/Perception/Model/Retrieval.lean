import Perception.Model.Repository

set_option autoImplicit false

/-! # Retrievals

A program retrieves files of artifacts one after another, from one repository or from several, and
the web may answer differently each time (`Retrieval.runAll`). What is on the machine stays there in
between.
-/

namespace Perception

/-- A file of an artifact that is asked of a repository, and the web as it is then. -/
structure Retrieval where
  repository : Repository
  artifact : Artifact
  name : String
  web : Web

structure Retrieved where
  query : Retrieval
  result : Outcome Path

namespace Retrieval

/-- Where the file is on this machine, if it is there. -/
def path (q : Retrieval) : Path := q.repository.fileOf q.artifact q.name

def url (q : Retrieval) : String := q.repository.urlOf q.artifact q.name

def run (q : Retrieval) (h : Host) : Outcome Path × Host :=
  (q.repository.openFile q.artifact q.name).run { h with web := q.web }

/-- Makes one retrieval after another. The log says what each of them came to. -/
def runAll : List Retrieval → Host → List Retrieved × Host
  | [], h => ([], h)
  | q :: qs, h =>
      let (result, h) := q.run h
      let (log, h) := runAll qs h
      (⟨q, result⟩ :: log, h)

end Retrieval

end Perception
