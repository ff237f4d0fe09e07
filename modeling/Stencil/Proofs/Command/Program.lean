import Stencil.Command.Program
import Stencil.Proofs.Production.Prefix

/-!
# The program on a workspace

A workspace is a machine, too: its operations are those of single directories and files, and what is reported is kept
(`onWorkspace`). On it the program is the run that is reasoned about; so what holds of runs holds of the program, as far
as the machine does single operations as a workspace does.

- **`performs_ensureDirectory`**, **`performs_install`**, **`performs_produce`**: directories, files and kits.
- **`performs_run`**: the program with arguments.
-/

namespace Stencil
namespace Command

/-- A workspace with what has been reported. -/
structure Reported where
  workspace : Workspace
  log : List LogLine

/-- Changes the workspace, unless the change is refused. -/
def change (f : Workspace → Except Fault Workspace) : StateM Reported (Except Fault Unit) :=
  modifyGet fun s =>
    match f s.workspace with
    | .error fault => (.error fault, s)
    | .ok w => (.ok (), { s with workspace := w })

/-- The machine whose files are those of a workspace. -/
def onWorkspace : Machine (StateM Reported) where
  makeDirectory p := change (·.makeDirectory p)
  isDirectory p := return (← get).workspace.isDirectory p
  write p content := change (·.write p content)
  read p := return (← get).workspace.read p
  report line := modify fun s => { s with log := s.log ++ [line] }

/-! ## Single operations -/

/-- From the first workspace the program gives the answer, leaves the second workspace, and reports the lines. -/
def Performs {α : Type} (x : StateM Reported α) (w : Workspace) (a : α) (w' : Workspace) (lines : List LogLine) :
    Prop :=
  ∀ log, (x.run ⟨w, log⟩).run = (a, ⟨w', log ++ lines⟩)

section Performs

variable {α β : Type} {x : StateM Reported α} {f : α → StateM Reported β} {a : α} {b : β} {w w' w'' : Workspace}
  {lines lines' : List LogLine}

theorem performs_pure (a : α) (w : Workspace) : Performs (pure a) w a w [] := by
  intro log
  simp

/-- One program after another. -/
theorem Performs.bind (h : Performs x w a w' lines) (h' : Performs (f a) w' b w'' lines') :
    Performs (x >>= f) w b w'' (lines ++ lines') := by
  intro log
  rw [StateT.run_bind, Id.run_bind, h log, h' (log ++ lines), List.append_assoc]

/-- One program after another that reports nothing. -/
theorem Performs.then (h : Performs x w a w' []) (h' : Performs (f a) w' b w'' lines) :
    Performs (x >>= f) w b w'' lines := h.bind h'

/-- A program and an answer behind it. -/
theorem Performs.answer (h : Performs x w a w' lines) (hf : f a = pure b) : Performs (x >>= f) w b w' lines := by
  have hpure : Performs (f a) w' b w' [] := hf ▸ performs_pure b w'
  have hend := h.bind hpure
  rwa [List.append_nil] at hend

theorem performs_change_ok (g : Workspace → Except Fault Workspace) (h : g w = .ok w') :
    Performs (change g) w (.ok ()) w' [] := by
  intro log
  simp [change, h]

theorem performs_change_error (g : Workspace → Except Fault Workspace) {fault : Fault} (h : g w = .error fault) :
    Performs (change g) w (.error fault) w [] := by
  intro log
  simp [change, h]

theorem performs_isDirectory (p : Path) (w : Workspace) :
    Performs (onWorkspace.isDirectory p) w (w.isDirectory p) w [] := by
  intro log
  simp [onWorkspace]

theorem performs_read (p : Path) (w : Workspace) : Performs (onWorkspace.read p) w (w.read p) w [] := by
  intro log
  simp [onWorkspace]

theorem performs_report (line : LogLine) (w : Workspace) : Performs (onWorkspace.report line) w () w [line] := by
  intro log
  simp [onWorkspace]

/-- A report, and the program behind it. -/
theorem Performs.report {f : Unit → StateM Reported β} (line : LogLine) (h : Performs (f ()) w b w' lines) :
    Performs (onWorkspace.report line >>= f) w b w' (line :: lines) := (performs_report line w).bind h

end Performs

variable {p q : Path} {content : ByteArray} {fault : Fault} {w w' : Workspace}

theorem performs_makeDirectory_ok (h : w.makeDirectory p = .ok w') :
    Performs (onWorkspace.makeDirectory p) w (.ok ()) w' [] := performs_change_ok (·.makeDirectory p) h

theorem performs_makeDirectory_error (h : w.makeDirectory p = .error fault) :
    Performs (onWorkspace.makeDirectory p) w (.error fault) w [] := performs_change_error (·.makeDirectory p) h

theorem performs_write_ok (h : w.write p content = .ok w') :
    Performs (onWorkspace.write p content) w (.ok ()) w' [] := performs_change_ok (·.write p content) h

theorem performs_write_error (h : w.write p content = .error fault) :
    Performs (onWorkspace.write p content) w (.error fault) w [] := performs_change_error (·.write p content) h

/-! ## Directories -/

theorem performs_unlessDirectory (p : Path) (fault : Fault) (w : Workspace) :
    Performs (onWorkspace.unlessDirectory p fault) w (if w.isDirectory p then none else some fault) w [] := by
  refine (performs_isDirectory p w).then ?_
  cases w.isDirectory p <;> exact performs_pure _ w

/-- Where a directory above is missing, all is left to the parent and what is made below it. -/
theorem performs_of_missing {a : Option Fault} (hp : p.text ≠ "") (hmake : w.makeDirectory p = .error .notFound)
    (hq : p.parent? = some q) (h : Performs (onWorkspace.ensureDirectory q >>= onWorkspace.makeBelow p) w a w' []) :
    Performs (onWorkspace.ensureDirectory p) w a w' [] := by
  rw [Machine.ensureDirectory, if_neg hp]
  refine (performs_makeDirectory_error hmake).then ?_
  simp only
  split
  · next hnone => cases hq.symm.trans hnone
  · next q' hq' =>
    obtain rfl := Option.some.inj (hq.symm.trans hq')
    exact h

/-- **Directories** are made as they are in a workspace. -/
theorem performs_ensureDirectory (p : Path) (w : Workspace) :
    Performs (onWorkspace.ensureDirectory p) w (w.ensureDirectory p).2 (w.ensureDirectory p).1 [] := by
  fun_induction Workspace.ensureDirectory w p with
  | case1 p hp =>
    rw [Machine.ensureDirectory, if_pos hp]
    exact performs_pure none w
  | case2 p hp w' hmake =>
    rw [Machine.ensureDirectory, if_neg hp]
    exact (performs_makeDirectory_ok hmake).then (performs_pure none w')
  | case3 p hp hmake hq =>
    rw [Machine.ensureDirectory, if_neg hp]
    refine (performs_makeDirectory_error hmake).then ?_
    simp only
    split
    · exact performs_pure _ w
    · next q hsome => cases hq.symm.trans hsome
  | case4 p hp hmake q hq w' f heq ih =>
    rw [heq] at ih
    exact performs_of_missing hp hmake hq (ih.then (performs_pure (some f) w'))
  | case5 p hp hmake q hq w' heq w'' hmake' ih =>
    rw [heq] at ih
    have hbelow : Performs (onWorkspace.makeBelow p none) w' none w'' [] :=
      (performs_makeDirectory_ok hmake').then (performs_pure none w'')
    exact performs_of_missing hp hmake hq (ih.then hbelow)
  | case6 p hp hmake q hq w' heq f hmake' ih =>
    rw [heq] at ih
    have hbelow : Performs (onWorkspace.makeBelow p none) w' (if w'.isDirectory p then none else some f) w' [] :=
      (performs_makeDirectory_error hmake').then (performs_unlessDirectory p f w')
    exact performs_of_missing hp hmake hq (ih.then hbelow)
  | case7 p hp f hf hmake =>
    rw [Machine.ensureDirectory, if_neg hp]
    refine (performs_makeDirectory_error hmake).then ?_
    cases f with
    | notFound => exact absurd rfl hf
    | _ => exact performs_unlessDirectory p _ w

/-! ## Files -/

theorem performs_writeFile (path : Path) (content : ByteArray) (w : Workspace) :
    Performs (onWorkspace.writeFile path content) w (w.writeFile path content).failure
      (w.writeFile path content).workspace (w.writeFile path content).log := by
  rw [Workspace.writeFile]
  cases hwrite : w.write path content with
  | error f => exact (performs_write_error hwrite).then (.report _ (performs_pure _ w))
  | ok w' => exact (performs_write_ok hwrite).then (.report _ (performs_pure _ w'))

/-- **Files** are put as they are in a workspace. -/
theorem performs_install (path : Path) (content : ByteArray) (w : Workspace) :
    Performs (onWorkspace.install path content) w (w.install path content).failure (w.install path content).workspace
      (w.install path content).log := by
  rcases w.install_cases path content with ⟨hq, e⟩ | ⟨q, w', fault, hq, he, e⟩ | ⟨q, w', hq, he, e⟩
  · rw [Machine.install, hq, e]
    exact performs_writeFile path content w
  · have hmade := performs_ensureDirectory q w
    rw [he] at hmade
    rw [Machine.install, hq, e]
    exact hmade.then (.report _ (performs_pure _ w'))
  · have hmade := performs_ensureDirectory q w
    rw [he] at hmade
    rw [Machine.install, hq, e]
    exact hmade.then (.report _ (performs_writeFile path content w'))

/-! ## Kits -/

theorem performs_reportAll (lines : List LogLine) (w : Workspace) :
    Performs (onWorkspace.reportAll lines) w () w lines := by
  induction lines with
  | nil => exact performs_pure () w
  | cons line rest ih => exact .report line ih

/-- **Kits** are produced as they are in a workspace. -/
theorem performs_produce (dir : Path) (b : Bindings) (ps : List FilePattern) (w : Workspace) :
    Performs (onWorkspace.produce dir b ps) w (Stencil.produce dir b ps w).outcome
      (Stencil.produce dir b ps w).workspace (Stencil.produce dir b ps w).log := by
  induction ps generalizing w with
  | nil => exact performs_pure _ w
  | cons p rest ih =>
    cases hd : p.draft dir b with
    | error f =>
      rw [Machine.produce, hd, produce_of_draft_error rest hd]
      exact (performs_reportAll _ w).answer rfl
    | ok d =>
      have hinstall : Performs (onWorkspace.install d.path d.text.toUTF8) w (d.write w).failure (d.write w).workspace
          (d.write w).log := performs_install d.path d.text.toUTF8 w
      cases hw : (d.write w).failure with
      | some f =>
        rw [hw] at hinstall
        rw [Machine.produce, hd, produce_of_write_error rest hd hw]
        exact hinstall.answer rfl
      | none =>
        rw [hw] at hinstall
        rw [Machine.produce, hd, produce_of_write_ok rest hd hw]
        refine hinstall.bind ((ih (d.write w).workspace).answer ?_)
        simp only [Production.outcome]
        cases (Stencil.produce dir b rest (d.write w).workspace).failure <;> rfl

/-! ## Runs -/

/-- What is reported while an order is carried out: that its settings are taken, what producing the kit logs, and how
many files have been made. -/
def Order.reports (o : Order) (w : Workspace) : List LogLine :=
  o.config.toList.map .loading ++
    match o.settings w with
    | .error _ => []
    | .ok settings =>
      match settings.requireKit with
      | .error _ => []
      | .ok kit =>
        let dir := settings.pluginDirectory o.name
        let r := kit.produce dir (.plugin o.provider o.name) w
        match r.failure with
        | some _ => r.log
        | none => r.log ++ [.finished r.written.length dir]

/-- What is reported while the program runs. -/
def reports (args : List String) (w : Workspace) : List LogLine :=
  match read args with
  | .order o => o.reports w
  | .help | .version | .misuse => []

theorem performs_settings (o : Order) (w : Workspace) :
    Performs (onWorkspace.settings o) w (o.settings w) w (o.config.toList.map .loading) := by
  rw [Machine.settings, Order.settings]
  cases o.config with
  | none => exact performs_pure _ w
  | some p =>
    refine .report _ ((performs_read p w).answer ?_)
    change _ = pure (Settings.load w p)
    rw [Settings.load]
    cases w.read p <;> rfl

theorem performs_make (o : Order) (w : Workspace) :
    Performs (onWorkspace.make o) w (o.run w).1 (o.run w).2 (o.reports w) := by
  rw [Machine.make, Order.run, Order.reports]
  refine (performs_settings o w).bind ?_
  cases o.settings w with
  | error e => exact performs_pure _ w
  | ok settings =>
    simp only
    cases settings.requireKit with
    | error e => exact performs_pure _ w
    | ok kit =>
      let dir := settings.pluginDirectory o.name
      let r := kit.produce dir (.plugin o.provider o.name) w
      have hproduce : Performs (onWorkspace.produce dir (.plugin o.provider o.name) kit.patterns) w r.outcome
          r.workspace r.log := performs_produce dir _ kit.patterns w
      simp only
      rw [Production.outcome] at hproduce
      cases hfailure : r.failure with
      | some f =>
        rw [hfailure] at hproduce
        exact hproduce.answer rfl
      | none =>
        rw [hfailure] at hproduce
        exact hproduce.bind (.report _ (performs_pure _ _))

/-- **The program on a workspace** is the run that is reasoned about: it comes to the same result, leaves the same
files, and reports what the run logs. -/
theorem performs_run (args : List String) (w : Workspace) :
    Performs (onWorkspace.run args) w (run args w).1 (run args w).2 (reports args w) := by
  rw [Machine.run, run, reports]
  cases read args with
  | order o => exact performs_make o w
  | _ => exact performs_pure _ w

end Command
end Stencil
