import Stencil.Path

/-!
# Command line arguments

The program takes the provider and the name of a plugin, and optionally the path of a configuration. Arguments are taken
one by one from the left, and the first that settles the matter counts: a request for help or for the version, or an
argument that does not fit. After two hyphens that stand alone every argument is a name.

These are the rules of `clap` 4 for two arguments with names, one option with a value, and the options for the help and
the version. In which words it refuses arguments is not kept.
-/

namespace Stencil
namespace Command

/-- What the arguments ask for. -/
structure Order where
  provider : String
  name : String
  config : Option Path
  deriving DecidableEq

/-- What becomes of the arguments. -/
inductive Reading
  /-- Make a plugin. -/
  | order (o : Order)
  /-- Print the help. -/
  | help
  /-- Print the version. -/
  | version
  /-- The arguments do not fit. -/
  | misuse
  deriving DecidableEq

/-- The arguments taken so far. -/
structure Taken where
  provider : Option String
  name : Option String
  config : Option Path

namespace Taken

/-- No argument has been taken. -/
def nothing : Taken := ⟨none, none, none⟩

/-- One more argument that is no option; there are two at most. -/
def addName (t : Taken) (arg : String) : Option Taken :=
  match t.provider, t.name with
  | none, _ => some { t with provider := some arg }
  | some _, none => some { t with name := some arg }
  | some _, some _ => none

/-- The path of the configuration, which is not empty and is given once at most. -/
def addConfig (t : Taken) (value : List Char) : Option Taken :=
  if value = [] || t.config.isSome then none else some { t with config := some ⟨String.ofList value⟩ }

/-- What is asked for when all arguments have been taken. -/
def finish (t : Taken) : Reading :=
  match t.provider, t.name with
  | some provider, some name => .order ⟨provider, name, t.config⟩
  | _, _ => .misuse

end Taken

/-- What a single argument is. -/
inductive Argument
  /-- A name. -/
  | name
  /-- Two hyphens, after which there are no options. -/
  | separator
  | help
  | version
  /-- The option for the configuration, with the value written into the same argument if there is one. -/
  | config (value : Option (List Char))
  /-- An option that there is not. -/
  | unknown
  deriving DecidableEq

/-- An option that is written with two hyphens, without them. -/
def Argument.ofLong (cs : List Char) : Argument :=
  let name := cs.takeWhile (· != '=')
  match cs.drop name.length with
  | [] =>
    if name = [] then .separator
    else if name = "help".toList then .help
    else if name = "version".toList then .version
    else if name = "config".toList then .config none
    else .unknown
  | _ :: value => if name = "config".toList then .config (some value) else .unknown

/-- An option that is written with one hyphen, without it. Its letter comes first, and its value may follow directly or
behind an equals sign. -/
def Argument.ofShort : List Char → Argument
  | [] => .name
  | 'h' :: _ => .help
  | 'V' :: _ => .version
  | ['c'] => .config none
  | 'c' :: '=' :: value => .config (some value)
  | 'c' :: value => .config (some value)
  | _ => .unknown

/-- What an argument is. A single hyphen is a name. -/
def Argument.ofChars : List Char → Argument
  | '-' :: '-' :: cs => .ofLong cs
  | '-' :: cs => .ofShort cs
  | _ => .name

/-- Takes arguments of which none is an option. -/
def takeNames (t : Taken) : List String → Reading
  | [] => t.finish
  | arg :: rest =>
    match t.addName arg with
    | none => .misuse
    | some t => takeNames t rest

/-- Takes arguments. -/
def takeArguments (t : Taken) : List String → Reading
  | [] => t.finish
  | arg :: rest =>
    match Argument.ofChars arg.toList with
    | .name =>
      match t.addName arg with
      | none => .misuse
      | some t => takeArguments t rest
    | .separator => takeNames t rest
    | .help => .help
    | .version => .version
    | .unknown => .misuse
    | .config (some value) =>
      match t.addConfig value with
      | none => .misuse
      | some t => takeArguments t rest
    | .config none =>
      match rest with
      | [] => .misuse
      | value :: rest =>
        if Argument.ofChars value.toList = .name then
          match t.addConfig value.toList with
          | none => .misuse
          | some t => takeArguments t rest
        else .misuse

/-- Reads the arguments. -/
def read (args : List String) : Reading := takeArguments .nothing args

end Command
end Stencil
