import Stencil.Command.Arguments
import Stencil.Command.Report
import Stencil.Production

/-!
# Runs

A run loads the settings, if a configuration is given, takes the kit that they name, and produces it in the directory of
the plugin. Nothing is written before the settings and the whole kit have been read.
-/

namespace Stencil
namespace Command

/-- What came of a run. -/
inductive Result
  /-- The help is to be printed. -/
  | help
  /-- The version is to be printed. -/
  | version
  /-- The arguments do not fit. -/
  | misuse
  /-- The plugin has been made. -/
  | finished
  /-- The run failed. -/
  | failed (e : RunError)
  deriving DecidableEq

/-- The name of the program and its version. -/
def versionLine : String := "newplugin 0.1.0\n"

namespace Result

/-- The exit code of the program. -/
def exitCode : Result → Nat
  | .help | .version | .finished => 0
  | .failed _ => 1
  | .misuse => 2

/-- What the program prints about an error. -/
def report : Result → String
  | .failed e => e.report
  | _ => ""

end Result

/-- The settings that an order asks for. -/
def Order.settings (o : Order) (w : Workspace) : Except SettingsError Settings :=
  match o.config with
  | none => .ok .default
  | some p => Settings.load w p

/-- Makes the plugin that is ordered. -/
def Order.run (o : Order) (w : Workspace) : Result × Workspace :=
  match o.settings w with
  | .error e => (.failed (.settings e), w)
  | .ok settings =>
    match settings.requireKit with
    | .error e => (.failed (.kit e), w)
    | .ok kit =>
      let dir := settings.pluginDirectory o.name
      let r := kit.produce dir (.plugin o.provider o.name) w
      match r.failure with
      | some f => (.failed (.production dir f), r.workspace)
      | none => (.finished, r.workspace)

/-- Runs the program with arguments. -/
def run (args : List String) (w : Workspace) : Result × Workspace :=
  match read args with
  | .help => (.help, w)
  | .version => (.version, w)
  | .misuse => (.misuse, w)
  | .order o => o.run w

end Command
end Stencil
