import Stencil.Command.Program

/-!
# The machine

The program on the files of the machine that it runs on. What it does with them is told in `Command.Machine`; this
module does single operations and prints.
-/

namespace Stencil
namespace Command

/-- How the program is used. -/
def usage : String := "Usage: newplugin [OPTIONS] <PROVIDER> <NAME>\n"

/-- The help text. -/
def helpText : String :=
  "Scaffolds the boilerplate files of a new plugin from a fixed template catalogue.\n\n" ++
  usage ++
  "\nArguments:\n" ++
  "  <PROVIDER>  Name of plugin provider (btcm for plugins developed by Bitcoin Music)\n" ++
  "  <NAME>      Name of plugin to create\n\n" ++
  "Options:\n" ++
  "  -c, --config <CONFIG>  Path to a YAML configuration file\n" ++
  "  -h, --help             Print help\n" ++
  "  -V, --version          Print version\n"

/-- What is printed about arguments that do not fit. It does not tell which argument it is. -/
def misuseText : String := usage ++ "\nFor more information, try '--help'.\n"

/-- The fault that the operating system reports; other errors are thrown again. -/
def faultOf (e : IO.Error) : IO Fault :=
  match e with
  | .noFileOrDirectory _ _ _ => return .notFound
  | .alreadyExists _ _ _ => return .alreadyExists
  | .inappropriateType _ code _ => if code = 21 then return .isADirectory else return .notADirectory
  | .invalidArgument _ code _ => if code = 36 then return .nameTooLong else throw e
  | _ => throw e

/-- Does something with a path, and says why it could not be done. -/
def attempt {α : Type} (p : Path) (action : String → IO α) : IO (Except Fault α) :=
  match Workspace.usable p with
  | .error fault => return .error fault
  | .ok _ =>
    try return .ok (← action p.text)
    catch e => return .error (← faultOf e)

/-- The machine that the program runs on. That a path leads to a directory shows when it is read as a file. Reports that
are meant for debugging are not printed. -/
def machine : Machine IO where
  makeDirectory p := attempt p (IO.FS.createDir ·)
  isDirectory p := do
    match ← attempt p (IO.FS.readBinFile ·) with
    | .error .isADirectory => return true
    | _ => return false
  write p content := attempt p (IO.FS.writeBinFile · content)
  read p := attempt p (IO.FS.readBinFile ·)
  report line := do
    if line.level != .debug then IO.eprintln ("[" ++ line.level.name ++ "] " ++ line.text)

end Command
end Stencil

open Stencil Command in
/-- Runs the program. -/
def main (args : List String) : IO UInt32 := do
  let result ← machine.run args
  match result with
  | .help => IO.print helpText
  | .version => IO.print versionLine
  | .misuse => IO.eprint misuseText
  | .finished => pure ()
  | .failed e => IO.eprint e.report
  return result.exitCode.toUInt32
