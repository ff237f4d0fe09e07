import Stencil.Session
import Stencil.Proofs.Command.Run
import Stencil.Proofs.Production.Log

/-!
# What sessions keep

Whatever a session is asked for, its kit stays one that texts are read as, and a request that is refused leaves no trace
but in the files.

- **`isRead_step`**, **`isRead_run`**: the kit of a session holds what its own texts are read as.
- **`keeps_of_error`**: a request that is refused changes neither bindings nor kit, directory or settings.
- **`run_keeps`**: every session that requests lead to, and what any further request does to it.
-/

namespace Stencil

/-! ## No production comes upon malformed text -/

section Malformed

variable {p : FilePattern} {dir : Path} {b : Bindings} {w : Workspace} {m : Malformed}

theorem draft_ne_malformed : p.draft dir b ≠ .error (.malformed m) := by
  intro h
  -- none of the ways to fail is that a text is malformed
  cases failureLines_of_draft h (.fresh "")

theorem failure?_ne_malformed : p.failure? dir b w ≠ some (.malformed m) := by
  intro h
  rw [FilePattern.failure?] at h
  cases hd : p.draft dir b with
  | error f =>
    rw [hd] at h
    cases h
    exact draft_ne_malformed hd
  | ok d =>
    rw [hd] at h
    cases failureLines_of_write hd h

theorem failure_produce_ne_malformed {ps : List FilePattern} : (produce dir b ps w).failure ≠ some (.malformed m) := by
  intro h
  obtain ⟨-, -, ds, -, -, -, -, -, ⟨-, hnone, -⟩ | ⟨p, -, f, -, hf, hsome, -⟩⟩ := exists_ending dir b w ps
  · cases h.symm.trans hnone
  · obtain rfl := Option.some.inj (h.symm.trans hsome)
    exact failure?_ne_malformed hf

end Malformed

namespace Session

/-! ## One request -/

/-- Bindings, kit, directory and settings are the same. -/
structure Keeps (s s' : Session) : Prop where
  bindings : s'.bindings = s.bindings
  kit : s'.kit = s.kit
  directory : s'.directory = s.directory
  settings : s'.settings = s.settings

variable {s : Session} {r : Request} {rs : List Request}

theorem Keeps.refl (s : Session) : s.Keeps s := ⟨rfl, rfl, rfl, rfl⟩

theorem keeps_finish (s : Session) (w : Workspace) (failure : Option Failure) (log : List LogLine) (a : Answer) :
    s.Keeps (s.finish w failure log a).1 := by
  cases failure <;> exact ⟨rfl, rfl, rfl, rfl⟩

theorem failure_of_finish {w : Workspace} {failure : Option Failure} {log : List LogLine} {a : Answer}
    {e : SessionError} (h : (s.finish w failure log a).2.answer = .error e) :
    ∃ f, failure = some f ∧ e = .failure f := by
  cases failure with
  | none => cases h
  | some f => exact ⟨f, rfl, (Except.error.inj h).symm⟩

/-- Settings that cannot be had are not taken. -/
theorem keeps_takeSettings {e : SessionError} {settings : Except SettingsError Settings}
    (h : (s.takeSettings settings).2.answer = .error e) : s.Keeps (s.takeSettings settings).1 := by
  cases settings with
  | error e' => exact Keeps.refl s
  | ok settings => cases h

theorem kit_takeSettings (s : Session) (settings : Except SettingsError Settings) :
    (s.takeSettings settings).1.kit = s.kit := by
  cases settings <;> rfl

/-- **What is refused** changes nothing but files. -/
theorem keeps_of_error {e : SessionError} (h : (s.step r).2.answer = .error e) : s.Keeps (s.step r).1 := by
  cases r with
  | fill template =>
    rw [step]
    cases substitute template s.bindings <;> exact Keeps.refl s
  | add source =>
    rw [step] at h ⊢
    cases hadd : s.kit.add source with
    | error m => exact Keeps.refl s
    | ok k =>
      rw [hadd] at h
      cases h
  | useSettingsKit =>
    rw [step] at h ⊢
    cases hkit : s.settings.requireKit with
    | error e' => exact Keeps.refl s
    | ok k =>
      rw [hkit] at h
      cases h
  | useSettings settings => exact keeps_takeSettings h
  | parseSettings text => exact keeps_takeSettings h
  | loadSettings p => exact keeps_takeSettings h
  | produce => exact keeps_finish ..
  | write d => exact keeps_finish ..
  | makeDirectories p => exact keeps_finish ..
  | putFile p content => exact keeps_finish ..
  | _ => cases h

/-! ## Many requests -/

theorem isRead_requireKit {settings : Settings} {k : Kit} (h : settings.requireKit = .ok k) : k.IsRead := by
  have hnames := Settings.requireKit_ok_iff.mp h
  unfold Settings.Names at hnames
  split at hnames
  · rw [hnames]
    exact Kit.isRead_plugin
  · exact Kit.isRead_iff.mpr ⟨_, Kit.ofSources_ok_iff.mpr hnames⟩

/-- A request leaves a kit that texts are read as, if it brings no other. -/
theorem isRead_step (hs : s.kit.IsRead) (hr : ∀ k, r = .useKit k → k.IsRead) : (s.step r).1.kit.IsRead := by
  cases r with
  | fill template =>
    rw [step]
    cases substitute template s.bindings <;> exact hs
  | useKit k => exact hr k rfl
  | add source =>
    rw [step]
    cases hadd : s.kit.add source with
    | error m => exact hs
    | ok k => exact Kit.isRead_add hs hadd
  | useSettingsKit =>
    rw [step]
    cases hkit : s.settings.requireKit with
    | error e => exact hs
    | ok k => exact isRead_requireKit hkit
  | parseSettings text => exact (kit_takeSettings s _).symm ▸ hs
  | loadSettings p => exact (kit_takeSettings s _).symm ▸ hs
  | produce => exact (keeps_finish s _ _ _ _).kit.symm ▸ hs
  | write d => exact (keeps_finish s _ _ _ _).kit.symm ▸ hs
  | makeDirectories p => exact (keeps_finish s _ _ _ _).kit.symm ▸ hs
  | putFile p content => exact (keeps_finish s _ _ _ _).kit.symm ▸ hs
  | _ => exact hs

theorem isRead_run (hs : s.kit.IsRead) (hrs : ∀ k, .useKit k ∈ rs → k.IsRead) : (s.run rs).1.kit.IsRead := by
  induction rs generalizing s with
  | nil => exact hs
  | cons r rest ih =>
    have hstep := isRead_step hs fun k hk => hrs k (hk ▸ List.mem_cons_self)
    exact ih hstep fun k hk => hrs k (List.mem_cons_of_mem r hk)

theorem run_cons (s : Session) (r : Request) (rest : List Request) :
    s.run (r :: rest) = (((s.step r).1.run rest).1, (s.step r).2 :: ((s.step r).1.run rest).2) := rfl

/-- One more request is answered by the session that the others lead to. -/
theorem run_concat (s : Session) (rs : List Request) (r : Request) :
    s.run (rs ++ [r]) = (((s.run rs).1.step r).1, (s.run rs).2 ++ [((s.run rs).1.step r).2]) := by
  induction rs generalizing s with
  | nil => rfl
  | cons r' rest ih => rw [List.cons_append, run_cons, run_cons, ih, List.cons_append]

/-- **What sessions keep.** Let a session begin with a kit that texts make, and be given no kit but such as texts make.
Whatever else it is asked for, all templates of its kit are what their own sources are read as. Whatever it is asked for
next, it finds no malformed text when it drafts or produces; and bindings, kit, directory and settings stay as they are
if the request fails, and in any case if it is to draft or to produce. -/
theorem run_keeps (s₀ : Session) (rs : List Request) (h₀ : ∃ sources, Kit.ofSources sources = .ok s₀.kit)
    (hrs : ∀ k, .useKit k ∈ rs → ∃ sources, Kit.ofSources sources = .ok k) :
    let s := (s₀.run rs).1
    (∀ p ∈ s.kit.patterns,
      Template.parse p.path.source = .ok p.path ∧ Template.parse p.text.source = .ok p.text) ∧
    ∀ r, ∃ s' reply, s₀.run (rs ++ [r]) = (s', (s₀.run rs).2 ++ [reply]) ∧
      (r = .draft → ∃ ds, reply.answer = .ok (.drafts ds) ∧ ∀ m, .error (.malformed m) ∉ ds) ∧
      (r = .produce → ∀ m, reply.answer ≠ .error (.failure (.malformed m))) ∧
      ((∃ e, reply.answer = .error e) ∨ r = .draft ∨ r = .produce → s.Keeps s') := by
  intro s
  refine ⟨isRead_run (Kit.isRead_iff.mpr h₀) fun k hk => Kit.isRead_iff.mpr (hrs k hk), fun r => ?_⟩
  refine ⟨_, _, run_concat s₀ rs r, ?_, ?_, ?_⟩
  · rintro rfl
    refine ⟨_, rfl, fun m hm => ?_⟩
    obtain ⟨p, -, hp⟩ := List.mem_map.mp hm
    exact draft_ne_malformed hp
  · rintro rfl m hm
    obtain ⟨f, hf, hm⟩ := failure_of_finish hm
    obtain rfl := SessionError.failure.inj hm
    exact failure_produce_ne_malformed hf
  · rintro (⟨e, he⟩ | rfl | rfl)
    · exact keeps_of_error he
    · exact Keeps.refl s
    · exact keeps_finish ..

/-- The bundled kit and one more pattern, but not a second that is malformed; without values it cannot be produced. -/
theorem run_keeps_withoutValues :
    let rs : List Request := [.useKit .plugin, .add ⟨"\x7bname\x7d", ""⟩, .add ⟨"b", "\x7d"⟩]
    let s := (start.run rs).1
    s.kit.size = Kit.plugin.size + 1 ∧
      (∀ p ∈ s.kit.patterns, Template.parse p.path.source = .ok p.path ∧ Template.parse p.text.source = .ok p.text) ∧
      ∃ s' reply e, start.run (rs ++ [.produce]) = (s', (start.run rs).2 ++ [reply]) ∧ reply.answer = .error e ∧
        s.Keeps s' := by
  intro rs s
  have hrs : ∀ k, Request.useKit k ∈ rs → ∃ sources, Kit.ofSources sources = .ok k := by
    intro k hk
    obtain rfl : k = .plugin := by simpa [rs] using hk
    exact Kit.isRead_iff.mp Kit.isRead_plugin
  have hrefused : ((start.run (rs ++ [.produce])).2.getLast?.map fun reply => reply.answer.toOption.isNone) =
      some true := by decide +kernel
  obtain ⟨hparse, hnext⟩ := run_keeps start rs ⟨[], rfl⟩ hrs
  obtain ⟨s', reply, hrun, -, -, hkeeps⟩ := hnext .produce
  rw [hrun, List.getLast?_concat] at hrefused
  refine ⟨by decide +kernel, hparse, s', reply, ?_⟩
  cases ha : reply.answer with
  | ok a =>
    rw [Option.map_some, ha] at hrefused
    cases hrefused
  | error e => exact ⟨e, hrun, rfl, hkeeps (.inl ⟨e, ha⟩)⟩

end Session
end Stencil
