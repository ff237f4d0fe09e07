import Stencil.PluginKit
import Stencil.Path

/-!
# Settings

Where plugins go and which files they have. Without files of its own, a configuration uses the bundled plugin kit.
-/

namespace Stencil

/-- What a configuration says. -/
structure Settings where
  /-- The directory in which every plugin gets a directory of its own. -/
  root : Path
  /-- The files of a plugin, where they replace those of the bundled kit. -/
  files : Option (List FileSource)
  deriving DecidableEq

namespace Settings

/-- Where plugins go unless a configuration says otherwise. -/
def defaultRoot : Path := Path.join ⟨"libraries"⟩ ⟨"plugins"⟩

/-- What holds without a configuration. -/
def default : Settings := ⟨defaultRoot, none⟩

/-- The kit to produce. -/
def kit (s : Settings) : Except Malformed Kit :=
  match s.files with
  | none => .ok Kit.plugin
  | some files => Kit.ofSources files

/-- The directory of the plugin with the given name. -/
def pluginDirectory (s : Settings) (name : String) : Path := s.root.join ⟨name⟩

end Settings
end Stencil
