import Stencil.Draft

/-!
# Productions

A kit is produced pattern by pattern: drafted, then written. The first failure ends the run; what was written before it
stays, and nothing is written for the pattern that failed.
-/

namespace Stencil

/-- What came of producing a kit: the paths written, in the order of the kit, and the failure that ended the run early
if there was one. -/
structure Production where
  written : List Path
  failure : Option Failure
  workspace : Workspace
  log : List LogLine

/-- The paths of a run that went through, or its failure. -/
def Production.outcome (r : Production) : Except Failure (List Path) :=
  match r.failure with
  | none => .ok r.written
  | some f => .error f

/-- Drafts and writes patterns one after another, up to the first failure. -/
def produce (dir : Path) (b : Bindings) : List FilePattern → Workspace → Production
  | [], w => ⟨[], none, w, []⟩
  | p :: rest, w =>
    match p.draft dir b with
    | .error f => ⟨[], some f, w, f.draftLog ++ [.notDrafted p.path.source]⟩
    | .ok d =>
      match d.write w with
      | ⟨some f, w', log⟩ => ⟨[], some f, w', log⟩
      | ⟨none, w', log⟩ =>
        let r := produce dir b rest w'
        ⟨d.path :: r.written, r.failure, r.workspace, log ++ r.log⟩

/-- Produces a kit below a directory. -/
def Kit.produce (k : Kit) (dir : Path) (b : Bindings) (w : Workspace) : Production := Stencil.produce dir b k.patterns w

end Stencil
