import Stencil.Session
import Stencil.Main
import Stencil.Proofs.Template.Filling
import Stencil.Proofs.Production.Again
import Stencil.Proofs.Production.Containment
import Stencil.Proofs.Kit.Sources
import Stencil.Proofs.Workspace.Alike
import Stencil.Proofs.Production.Values
import Stencil.Proofs.Production.Log
import Stencil.Proofs.Session
import Stencil.Proofs.Template.Stages
import Stencil.Proofs.Draft.Writing
import Stencil.Proofs.Command.Plugin
import Stencil.Proofs.Command.Program
import Stencil.Proofs.Template.Concatenation
import Stencil.Proofs.Template.Equality
import Stencil.Proofs.Kit.Additions
import Stencil.Proofs.Kit.References
import Stencil.Proofs.Bindings.History
import Stencil.Proofs.Settings.Schema
import Stencil.Proofs.Yaml.Lexing
import Stencil.Proofs.Settings.Written
