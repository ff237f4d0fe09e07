import Stencil.Kit
import Stencil.Failure
import Stencil.LogLine
import Stencil.Workspace

/-!
# Drafts

A draft is a file that is ready to be written: its path and its text. Drafting touches no file. Writing a draft makes
the directory around it first; a failure leaves every file as it was.
-/

namespace Stencil

/-- A file to be written. -/
structure Draft where
  path : Path
  text : String
  deriving DecidableEq

/-- The file that a pattern makes below a directory. The filled path template must name a file: it is not empty, does
not end in a slash, and the joined path ends in a name. -/
def FilePattern.draft (p : FilePattern) (dir : Path) (b : Bindings) : Except Failure Draft :=
  match p.path.fill b with
  | .error u => .error (.unbound u)
  | .ok key =>
    match p.text.fill b with
    | .error u => .error (.unbound u)
    | .ok text =>
      let path := dir.join ⟨key⟩
      if key = "" || (Path.mk key).endsInSlash || path.fileName? = none then .error (.nameless path)
      else .ok ⟨path, text⟩

/-- What drafting itself reports about a failure. -/
def Failure.draftLog : Failure → List LogLine
  | .nameless path => [.nameless path]
  | _ => []

/-- What came of writing a file. -/
structure Written where
  failure : Option Failure
  workspace : Workspace
  log : List LogLine

/-- Writes a file where its directory is known to be there. -/
def Workspace.writeFile (w : Workspace) (path : Path) (content : ByteArray) : Written :=
  match w.write path content with
  | .error f => ⟨some (.file path f), w, [.notWritten path]⟩
  | .ok w' => ⟨none, w', [.written path]⟩

/-- Writes a file, making its directory first. -/
def Workspace.install (w : Workspace) (path : Path) (content : ByteArray) : Written :=
  match path.parent? with
  | none => w.writeFile path content
  | some dir =>
    match w.ensureDirectory dir with
    | (w', some f) => ⟨some (.directory dir f), w', [.notEnsured dir]⟩
    | (w', none) =>
      let r := w'.writeFile path content
      ⟨r.failure, r.workspace, .ensured dir :: r.log⟩

/-- Writes the file that the draft describes. -/
def Draft.write (d : Draft) (w : Workspace) : Written := w.install d.path d.text.toUTF8

end Stencil
