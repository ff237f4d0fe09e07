import Stencil.Production
import Stencil.Settings.Load
import Stencil.Template.Substitute

/-!
# Sessions

A session keeps what a user of the library works with from one request to the next: bindings, a kit, the directory to
produce it in, settings, and the files. A request that fails changes none of the first four; the files that it made or
wrote before it failed stay.
-/

namespace Stencil

/-- What a session keeps. -/
structure Session where
  bindings : Bindings
  kit : Kit
  directory : Path
  settings : Settings
  workspace : Workspace

/-- What a session can be asked for. -/
inductive Request
  /-- Use other bindings. -/
  | useBindings (b : Bindings)
  /-- Give a name a value. -/
  | insert (name value : String)
  /-- The value of a name. -/
  | value (name : String)
  /-- Whether the bindings are the given ones. -/
  | compare (b : Bindings)
  /-- Fill template text. -/
  | fill (template : String)
  /-- Use another kit. -/
  | useKit (k : Kit)
  /-- Add a file to the kit. -/
  | add (s : FileSource)
  /-- The patterns of the kit. -/
  | patterns
  /-- Produce in another directory. -/
  | useDirectory (dir : Path)
  /-- Use other settings. -/
  | useSettings (s : Settings)
  /-- Use the settings that YAML text holds. -/
  | parseSettings (text : String)
  /-- Use the settings in a file. -/
  | loadSettings (p : Path)
  /-- Use the kit of the settings. -/
  | useSettingsKit
  /-- Produce in the directory that the settings give a plugin. -/
  | usePluginDirectory (name : String)
  /-- Draft every pattern of the kit. -/
  | draft
  /-- Produce the kit. -/
  | produce
  /-- Write a file. -/
  | write (d : Draft)
  /-- Make a directory and those above it. -/
  | makeDirectories (p : Path)
  /-- Put a file with the given bytes, and the directories above it. -/
  | putFile (p : Path) (content : ByteArray)
  /-- Everything below the directory that the session started in. -/
  | listing

/-- What a request is answered with. -/
inductive Answer
  | bindings (b : Bindings)
  | inserted (previous : Option String) (b : Bindings)
  | value (v : Option String)
  | equal (eq : Bool)
  | text (t : String)
  | kit (k : Kit)
  | size (n : Nat)
  | directory (dir : Path)
  | settings (s : Settings)
  | drafts (ds : List (Except Failure Draft))
  | produced (paths : List Path)
  | written (path : Path)
  | done
  | listing (nodes : List (String × Tree.Node))

/-- Why a request was not answered. -/
inductive SessionError
  | failure (f : Failure)
  | settings (e : SettingsError)
  deriving DecidableEq

/-- An answer, and what was reported while it was found. -/
structure Reply where
  answer : Except SessionError Answer
  log : List LogLine

namespace Session

/-- The session that starts in an empty directory. -/
def start : Session where
  bindings := .empty
  kit := .empty
  directory := ⟨"out"⟩
  settings := .default
  workspace := .fresh "work"

/-- An answer without reports. -/
def reply (s : Session) (a : Answer) : Session × Reply := (s, ⟨.ok a, []⟩)

/-- A failure without reports. -/
def refuse (s : Session) (e : SessionError) : Session × Reply := (s, ⟨.error e, []⟩)

/-- Uses settings, if there are any. -/
def takeSettings (s : Session) : Except SettingsError Settings → Session × Reply
  | .error e => s.refuse (.settings e)
  | .ok settings => { s with settings := settings }.reply (.settings settings)

/-- Takes over the files, and answers if nothing failed. -/
def finish (s : Session) (w : Workspace) (failure : Option Failure) (log : List LogLine) (a : Answer) :
    Session × Reply :=
  match failure with
  | some f => ({ s with workspace := w }, ⟨.error (.failure f), log⟩)
  | none => ({ s with workspace := w }, ⟨.ok a, log⟩)

/-- What drafting a pattern reports. -/
def draftLog : Except Failure Draft → List LogLine
  | .error f => f.draftLog
  | .ok _ => []

/-- Answers a request. -/
def step (s : Session) : Request → Session × Reply
  | .useBindings b => { s with bindings := b }.reply (.bindings b)
  | .insert name value =>
    let (previous, b) := s.bindings.exchange name value
    { s with bindings := b }.reply (.inserted previous b)
  | .value name => s.reply (.value (s.bindings.get? name))
  | .compare b => s.reply (.equal (s.bindings = b))
  | .fill template =>
    match substitute template s.bindings with
    | .error f => s.refuse (.failure f)
    | .ok text => s.reply (.text text)
  | .useKit k => { s with kit := k }.reply (.kit k)
  | .add source =>
    match s.kit.add source with
    | .error m => s.refuse (.failure (.malformed m))
    | .ok k => { s with kit := k }.reply (.size k.size)
  | .patterns => s.reply (.kit s.kit)
  | .useDirectory dir => { s with directory := dir }.reply (.directory dir)
  | .useSettings settings => s.takeSettings (.ok settings)
  | .parseSettings text => s.takeSettings (Settings.parse text)
  | .loadSettings p => s.takeSettings (Settings.load s.workspace p)
  | .useSettingsKit =>
    match s.settings.requireKit with
    | .error e => s.refuse (.settings e)
    | .ok k => { s with kit := k }.reply (.size k.size)
  | .usePluginDirectory name =>
    let dir := s.settings.pluginDirectory name
    { s with directory := dir }.reply (.directory dir)
  | .draft =>
    let drafts := s.kit.patterns.map (·.draft s.directory s.bindings)
    (s, ⟨.ok (.drafts drafts), drafts.flatMap draftLog⟩)
  | .produce =>
    let r := s.kit.produce s.directory s.bindings s.workspace
    s.finish r.workspace r.failure r.log (.produced r.written)
  | .write d =>
    let r := d.write s.workspace
    s.finish r.workspace r.failure r.log (.written d.path)
  | .makeDirectories p =>
    let (w, fault) := s.workspace.ensureDirectory p
    s.finish w (fault.map (.directory p)) [] .done
  | .putFile p content =>
    let r := s.workspace.install p content
    s.finish r.workspace r.failure [] .done
  | .listing => s.reply (.listing s.workspace.listing)

/-- Answers requests one after another. -/
def run (s : Session) : List Request → Session × List Reply
  | [] => (s, [])
  | r :: rest =>
    let (s, reply) := s.step r
    let (s, replies) := s.run rest
    (s, reply :: replies)

end Session
end Stencil
