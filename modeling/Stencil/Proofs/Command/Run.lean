import Stencil.Command.Run
import Stencil.Proofs.Kit.Sources
import Stencil.Proofs.Settings.Files

/-!
# What a run checks before it writes

A run comes to writing only with settings and a kit, so that nothing is written unless the settings can be loaded and
all texts in them are template text.

- **`settings_ok_iff`**: which settings an order asks for.
- **`kit_ok_iff`**: which kit settings name.
- **`run_checks_first`**: what comes of a run, told from the settings, their texts and the production of their kit.
-/

namespace Stencil

/-! ## Kits of settings -/

namespace Settings

variable {s : Settings} {k : Kit}

/-- The kit is the one that the settings name: the bundled one, or what the files of the settings are read as. -/
def Names (s : Settings) (k : Kit) : Prop :=
  match s.files with
  | none => k = Kit.plugin
  | some sources => List.Forall₂ FileSource.Reads sources k.patterns

/-- All texts in the settings are template text. -/
def WellFormed (s : Settings) : Prop := ∀ sources, s.files = some sources → ∀ f ∈ sources, f.WellFormed

theorem kit_ok_iff : s.kit = .ok k ↔ s.Names k := by
  rw [kit, Names]
  cases s.files with
  | none => simp [eq_comm]
  | some sources => exact Kit.ofSources_ok_iff

theorem requireKit_ok_iff : s.requireKit = .ok k ↔ s.Names k := by
  rw [← kit_ok_iff, requireKit]
  cases s.kit <;> simp

theorem exists_names_iff : (∃ k, s.Names k) ↔ s.WellFormed := by
  unfold Names WellFormed
  cases s.files with
  | none => simp
  | some sources =>
    simp only [← Kit.ofSources_ok_iff, Kit.exists_ofSources_iff, Option.some.injEq, forall_eq']

end Settings

namespace Command

variable {o : Order} {w : Workspace} {s : Settings} {k : Kit}

/-- The settings that an order asks for: those that hold without a configuration, or those that the file at the path of
the configuration holds as YAML text. -/
inductive Order.AsksFor (o : Order) (w : Workspace) : Settings → Prop
  | unconfigured (h : o.config = none) : AsksFor o w .default
  | configured {p : Path} {l : Location} {text : String} {s : Settings} (hp : o.config = some p)
      (hfind : w.find p = .ok (l, .file text.toUTF8)) (hs : Settings.ofYaml text = .ok s) : AsksFor o w s

theorem settings_ok_iff : o.settings w = .ok s ↔ o.AsksFor w s := by
  rw [Order.settings]
  cases hconfig : o.config with
  | none =>
    constructor
    · intro h
      cases h
      exact .unconfigured hconfig
    · rintro (_ | ⟨hp, -, -⟩)
      · rfl
      · rw [hconfig] at hp
        cases hp
  | some p =>
    constructor
    · intro h
      obtain ⟨l, text, hfind, hs⟩ := Settings.load_ok_iff.mp h
      exact .configured hconfig hfind hs
    · rintro (h | ⟨hp, hfind, hs⟩)
      · rw [hconfig] at h
        cases h
      · rw [hconfig] at hp
        cases hp
        exact Settings.load_ok_iff.mpr ⟨_, _, hfind, hs⟩

/-- Settings have no files of their own where there is no configuration, or where it gives none. -/
theorem files_eq_none_iff (h : o.AsksFor w s) :
    s.files = none ↔ ∀ p l text, o.config = some p → w.find p = .ok (l, .file text.toUTF8) →
      Settings.GivesNoFiles (Yaml.Document.read text) := by
  cases h with
  | unconfigured h =>
    refine ⟨fun _ p l text hp => ?_, fun _ => rfl⟩
    rw [h] at hp
    cases hp
  | configured hp hfind hs =>
    rw [Settings.files_eq_none_iff hs]
    constructor
    · intro hnone p l text hp' hfind'
      rw [hp] at hp'
      cases hp'
      rw [hfind] at hfind'
      obtain ⟨-, hcontent⟩ := Prod.mk.inj (Except.ok.inj hfind')
      rw [← String.toByteArray_inj.mp (Tree.Node.file.inj hcontent)]
      exact hnone
    · intro hall
      exact hall _ _ _ hp hfind

/-! ## Runs -/

theorem run_of_no_settings (h : ∀ s, ¬ o.AsksFor w s) : (o.run w).1.exitCode = 1 ∧ (o.run w).2 = w := by
  rw [Order.run]
  cases hs : o.settings w with
  | error e => exact ⟨rfl, rfl⟩
  | ok s => exact absurd (settings_ok_iff.mp hs) (h s)

theorem run_of_no_kit (hs : o.AsksFor w s) (h : ¬ s.WellFormed) : (o.run w).1.exitCode = 1 ∧ (o.run w).2 = w := by
  rw [Order.run, settings_ok_iff.mpr hs]
  simp only
  cases hk : s.requireKit with
  | error e => exact ⟨rfl, rfl⟩
  | ok k => exact absurd (Settings.exists_names_iff.mp ⟨k, Settings.requireKit_ok_iff.mp hk⟩) h

theorem run_of_kit (hs : o.AsksFor w s) (hk : s.Names k) :
    let made := k.produce (s.pluginDirectory o.name) (.plugin o.provider o.name) w
    ((o.run w).1.exitCode = 0 ↔ made.failure = none) ∧ (o.run w).2 = made.workspace := by
  intro made
  rw [Order.run, settings_ok_iff.mpr hs]
  simp only [Settings.requireKit_ok_iff.mpr hk]
  split
  · next f hf => exact ⟨⟨nofun, fun hnone => nomatch hf.symm.trans hnone⟩, rfl⟩
  · next hf => exact ⟨⟨fun _ => hf, fun _ => rfl⟩, rfl⟩

/-- **Checked before anything is written.** Let arguments be taken as an order. If there are no settings that it asks
for, or if any text in them is not template text, the run ends with the exit code 1 and leaves the workspace as it was.
If there are settings and all their texts are template text, there is the kit that they name: what their files are read
as, or the bundled kit where the configuration is missing or gives no files. The run ends with the exit code 0 exactly
when this kit is produced without failure in the directory of the plugin, with the two names bound, and leaves what this
production leaves. -/
theorem run_checks_first (args : List String) (o : Order) (w : Workspace) (h : read args = .order o) :
    let r := run args w
    ((∀ s, ¬ o.AsksFor w s) → r.1.exitCode = 1 ∧ r.2 = w) ∧
    ∀ s, o.AsksFor w s →
      (∀ sources, s.files = some sources → (∃ f ∈ sources, ¬ f.WellFormed) → r.1.exitCode = 1 ∧ r.2 = w) ∧
      (s.files = none ↔ ∀ p l text, o.config = some p → w.find p = .ok (l, .file text.toUTF8) →
        Settings.GivesNoFiles (Yaml.Document.read text)) ∧
      (s.WellFormed → ∃ k, s.Names k ∧
        let b := (Bindings.empty.insert "plugin_provider" o.provider).insert "plugin_name" o.name
        let made := k.produce (s.root.join ⟨o.name⟩) b w
        (r.1.exitCode = 0 ↔ made.failure = none) ∧ r.2 = made.workspace) := by
  intro r
  have hr : r = o.run w := by
    show run args w = _
    rw [run, h]
  rw [hr]
  refine ⟨run_of_no_settings, fun s hs => ⟨?_, files_eq_none_iff hs, fun hwell => ?_⟩⟩
  · rintro sources hsources ⟨f, hf, hbad⟩
    exact run_of_no_kit hs fun hwell => hbad (hwell sources hsources f hf)
  · obtain ⟨k, hk⟩ := Settings.exists_names_iff.mpr hwell
    exact ⟨k, hk, run_of_kit hs hk⟩

/-- A configuration whose last text is not template text, and one without that file. -/
theorem run_checks_first_lastUnmatched :
    let text := "templates: [\x7bpath: a, body: ok\x7d, \x7bpath: b, body: '\x7d'\x7d]\n"
    let shorter := "templates: [\x7bpath: a, body: ok\x7d]\n"
    let put : String → Workspace := fun content => (Workspace.install (.fresh "work") ⟨"c"⟩ content.toUTF8).workspace
    let args := ["acme", "plug", "--config=c"]
    read args = .order ⟨"acme", "plug", some ⟨"c"⟩⟩ ∧
      (run args (put text)).1.exitCode = 1 ∧ (run args (put text)).2 = put text ∧
      (run args (put shorter)).1.exitCode = 0 := by
  intro text shorter put args
  have hread : read args = .order ⟨"acme", "plug", some ⟨"c"⟩⟩ := by decide +kernel
  have hfind : (put text).find ⟨"c"⟩ = .ok (["c", "work"], .file text.toUTF8) := by decide +kernel
  have hfind' : (put shorter).find ⟨"c"⟩ = .ok (["c", "work"], .file shorter.toUTF8) := by decide +kernel
  have hs : Settings.ofYaml text = .ok ⟨⟨"libraries/plugins"⟩, some [⟨"a", "ok"⟩, ⟨"b", "\x7d"⟩]⟩ := by decide +kernel
  have hs' : Settings.ofYaml shorter = .ok ⟨⟨"libraries/plugins"⟩, some [⟨"a", "ok"⟩]⟩ := by decide +kernel
  have hbad : ¬ (FileSource.mk "b" "\x7d").WellFormed := by
    rintro ⟨-, htext⟩
    have hparse : Template.parse "\x7d" = .error ⟨"\x7d", 0, .unmatched⟩ := by decide +kernel
    obtain ⟨t, ht⟩ := parse_of_isTemplate htext
    cases hparse.symm.trans ht
  obtain ⟨-, hchecked⟩ := run_checks_first args _ (put text) hread
  obtain ⟨hrefused, -, -⟩ := hchecked _ (.configured rfl hfind hs)
  obtain ⟨hcode, hkept⟩ := hrefused _ rfl ⟨_, List.mem_cons_of_mem _ List.mem_cons_self, hbad⟩
  have hnames : Settings.Names ⟨⟨"libraries/plugins"⟩, some [⟨"a", "ok"⟩]⟩
      ⟨[⟨⟨"a", [.literal "a"]⟩, ⟨"ok", [.literal "ok"]⟩⟩]⟩ :=
    Settings.kit_ok_iff.mp (by decide +kernel)
  obtain ⟨-, hchecked'⟩ := run_checks_first args _ (put shorter) hread
  obtain ⟨-, -, hmade⟩ := hchecked' _ (.configured rfl hfind' hs')
  obtain ⟨k, hk, hcode', -⟩ := hmade (Settings.exists_names_iff.mp ⟨_, hnames⟩)
  obtain rfl := Except.ok.inj ((Settings.kit_ok_iff.mpr hk).symm.trans (Settings.kit_ok_iff.mpr hnames))
  exact ⟨hread, hcode, hkept, hcode'.mpr (by decide +kernel)⟩

end Command
end Stencil
