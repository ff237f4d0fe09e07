import Stencil.Settings.Decode
import Stencil.Workspace

/-!
# Loading settings

Settings come from a YAML file, and a kit comes from settings. Each of the two can fail in its own way.
-/

namespace Stencil

/-- Why there are no settings, or no kit. -/
inductive SettingsError
  /-- The file cannot be read. -/
  | unread (fault : Fault)
  /-- The file does not hold settings. -/
  | undecoded (flaw : Yaml.Flaw)
  /-- A text in the settings is not a template. -/
  | malformed (m : Malformed)
  deriving DecidableEq

/-- The error in words. -/
def SettingsError.message : SettingsError → String
  | .unread fault => "Failed to read config file: " ++ fault.message
  | .undecoded flaw => "Failed to parse YAML: " ++ flaw.message
  | .malformed m => "Invalid template: " ++ m.message

namespace Settings

/-- The settings that YAML text holds. -/
def parse (text : String) : Except SettingsError Settings :=
  match ofYaml text with
  | .error flaw => .error (.undecoded flaw)
  | .ok s => .ok s

/-- The settings that the bytes of a file hold. -/
def ofBytes (content : ByteArray) : Except SettingsError Settings :=
  match String.fromUTF8? content with
  | none => .error (.unread .notText)
  | some text => parse text

/-- The settings in a file. -/
def load (w : Workspace) (p : Path) : Except SettingsError Settings :=
  match w.read p with
  | .error fault => .error (.unread fault)
  | .ok content => ofBytes content

/-- The kit to produce, or the first text of it that is not a template. -/
def requireKit (s : Settings) : Except SettingsError Kit :=
  match s.kit with
  | .error m => .error (.malformed m)
  | .ok k => .ok k

end Settings
end Stencil
