import Stencil.Command.Run

/-!
# The program

What the program does, on whatever machine it runs. Of a machine it needs operations on single directories and files,
and a place for its reports (`Machine`); how missing directories, files and whole kits are made is put together from
these.
-/

namespace Stencil
namespace Command

/-- What the program needs of a machine. An operation that is refused changes nothing. -/
structure Machine (m : Type → Type) where
  /-- Makes one directory, where nothing stands. -/
  makeDirectory : Path → m (Except Fault Unit)
  /-- The path leads to a directory. -/
  isDirectory : Path → m Bool
  /-- Writes a file, making it or replacing what it held. -/
  write : Path → ByteArray → m (Except Fault Unit)
  /-- The bytes of the file that the path leads to. -/
  read : Path → m (Except Fault ByteArray)
  /-- Takes a report. -/
  report : LogLine → m Unit

namespace Machine

variable {m : Type → Type} [Monad m] (M : Machine m)

/-- The fault, unless the path leads to a directory for all that. -/
def unlessDirectory (p : Path) (fault : Fault) : m (Option Fault) := do
  if ← M.isDirectory p then return none else return some fault

/-- Makes a directory once those above it have been made, unless that failed. -/
def makeBelow (p : Path) : Option Fault → m (Option Fault)
  | some fault => return some fault
  | none => do
    match ← M.makeDirectory p with
    | .ok _ => return none
    | .error fault => M.unlessDirectory p fault

/-- Makes a directory and those above it that are missing. -/
def ensureDirectory (p : Path) : m (Option Fault) := do
  if p.text = "" then return none
  match ← M.makeDirectory p with
  | .ok _ => return none
  | .error .notFound =>
    match _h : p.parent? with
    | none => return some .notFound
    | some q => M.makeBelow p (← ensureDirectory q)
  | .error fault => M.unlessDirectory p fault
termination_by p.text.length
decreasing_by exact Path.length_lt_of_parent? _h

/-- Writes a file where its directory is known to be there. -/
def writeFile (path : Path) (content : ByteArray) : m (Option Failure) := do
  match ← M.write path content with
  | .error fault =>
    M.report (.notWritten path)
    return some (.file path fault)
  | .ok _ =>
    M.report (.written path)
    return none

/-- Writes a file, making its directory first. -/
def install (path : Path) (content : ByteArray) : m (Option Failure) := do
  match path.parent? with
  | none => M.writeFile path content
  | some dir =>
    match ← M.ensureDirectory dir with
    | some fault =>
      M.report (.notEnsured dir)
      return some (.directory dir fault)
    | none =>
      M.report (.ensured dir)
      M.writeFile path content

/-- Takes reports one after another. -/
def reportAll : List LogLine → m Unit
  | [] => return
  | line :: rest => do
    M.report line
    reportAll rest

/-- Drafts and writes patterns one after another, up to the first failure. -/
def produce (dir : Path) (b : Bindings) : List FilePattern → m (Except Failure (List Path))
  | [] => return .ok []
  | p :: rest => do
    match p.draft dir b with
    | .error f =>
      M.reportAll (f.draftLog ++ [.notDrafted p.path.source])
      return .error f
    | .ok d =>
      match ← M.install d.path d.text.toUTF8 with
      | some f => return .error f
      | none =>
        match ← produce dir b rest with
        | .error f => return .error f
        | .ok written => return .ok (d.path :: written)

/-- The settings that an order asks for. -/
def settings (o : Order) : m (Except SettingsError Settings) := do
  match o.config with
  | none => return .ok .default
  | some p =>
    M.report (.loading p)
    match ← M.read p with
    | .error fault => return .error (.unread fault)
    | .ok content => return Settings.ofBytes content

/-- Makes the plugin that is ordered. -/
def make (o : Order) : m Result := do
  match ← M.settings o with
  | .error e => return .failed (.settings e)
  | .ok settings =>
    match settings.requireKit with
    | .error e => return .failed (.kit e)
    | .ok kit =>
      let dir := settings.pluginDirectory o.name
      match ← M.produce dir (.plugin o.provider o.name) kit.patterns with
      | .error f => return .failed (.production dir f)
      | .ok written =>
        M.report (.finished written.length dir)
        return .finished

/-- Runs the program with arguments. -/
def run (args : List String) : m Result := do
  match Command.read args with
  | .help => return .help
  | .version => return .version
  | .misuse => return .misuse
  | .order o => M.make o

end Machine
end Command
end Stencil
