import Stencil.Proofs.Command.Run
import Stencil.Proofs.Kit.Plugin

/-!
# Making a plugin

Two arguments that can stand in a path are enough: without a configuration the program makes the plugin in an empty
directory, whatever the two names look like to a template.

- **`read_names`**: two arguments that do not start with a hyphen are the two names.
- **`run_makes_plugin`**: what a run with two such names leaves in an empty directory.
-/

namespace Stencil
namespace Command

open PluginKit Workspace

theorem ofChars_eq_name : ∀ {cs : List Char}, cs.head? ≠ some '-' → Argument.ofChars cs = .name
  | [], _ => rfl
  | c :: cs, h => by
    have hc : c ≠ '-' := fun e => h (congrArg some e)
    unfold Argument.ofChars
    split
    · next e => exact absurd (List.cons.inj e).1 hc
    · next e => exact absurd (List.cons.inj e).1 hc
    · rfl

/-- Two arguments that are no options are who provides the plugin and what it is called. -/
theorem read_names {who what : String} (hwho : who.toList.head? ≠ some '-') (hwhat : what.toList.head? ≠ some '-') :
    read [who, what] = .order ⟨who, what, none⟩ := by
  simp [read, takeArguments, ofChars_eq_name hwho, ofChars_eq_name hwhat, Taken.addName, Taken.nothing, Taken.finish]

theorem pluginDirectory_default {what : String} (h : PlainName what) :
    Settings.default.pluginDirectory what = .ofNames (home what) := by
  have hroot : ∀ n ∈ ["libraries", "plugins"], PlainName n := by decide
  have hwhat : ∀ n ∈ [what], PlainName n := by simpa using h
  have hjoin := Path.join_ofNames (List.cons_ne_nil _ _) (List.cons_ne_nil _ _) hroot hwhat
  exact hjoin

/-- **Making a plugin.** Let two names be able to stand in a path and not start with a hyphen, the second short enough
for the names of its files. A run with them as its arguments in an empty directory ends with the exit code 0. Its kit is
what its texts are read as; it leaves five files, each with the text of the kit, in which literals are copied and each
hole holds its name, whatever the names look like; and it leaves the directories on the way to these files and nothing
else. -/
theorem run_makes_plugin (who what : String) (w : Workspace) (hwho : PlainName who) (hwhat : PlainName what)
    (hlen : what.utf8ByteSize ≤ 244) (hhyphen : who.toList.head? ≠ some '-') (hhyphen' : what.toList.head? ≠ some '-')
    (hempty : w.EmptyHere) :
    let r := run [who, what] w
    let dir := ["libraries", "plugins", what]
    let headers := dir ++ ["include", who, "plugins", what]
    let text := PluginKit.text who what
    let files := [
      (dir ++ ["CMakeLists.txt"], text buildList),
      (headers ++ [what ++ "_api.hpp"], text apiHeader),
      (headers ++ [what ++ "_plugin.hpp"], text pluginHeader),
      (dir ++ [what ++ "_api.cpp"], text apiSource),
      (dir ++ [what ++ "_plugin.cpp"], text pluginSource)]
    Kit.plugin.IsRead ∧ r.1.exitCode = 0 ∧ LaidOut w r.2 files ∧
      ∀ names, (∀ f ∈ files, ¬ names <+: f.1) → r.2.tree.node? (w.place names) = none := by
  intro r dir headers text files
  have hfiles : files = (made who what).map fun f => (home what ++ f.1, f.2) := rfl
  have hlayout := layout_made hwho hwhat hlen
  obtain ⟨houtcome, hworkspace⟩ := produce_of_drafted (drafted_plugin hwho hwhat hlen)
    (writesAll_of_layout hlayout hempty)
  have hr : r = Order.run ⟨who, what, none⟩ w := by
    show run [who, what] w = _
    rw [run, read_names hhyphen hhyphen']
  obtain ⟨hcode, hleft⟩ := run_of_kit (.unconfigured rfl : Order.AsksFor ⟨who, what, none⟩ w .default)
    (show Settings.default.Names Kit.plugin from rfl)
  rw [pluginDirectory_default hwhat] at hcode hleft
  have hlaid : LaidOut w r.2 files := by
    rw [hr, hleft, hfiles]
    exact hworkspace ▸ laidOut_of_layout hlayout hempty
  refine ⟨Kit.isRead_plugin, hr ▸ hcode.mpr (failure_of_outcome_ok houtcome), hlaid, fun names hnames => ?_⟩
  have hne : names ≠ [] := by
    rintro rfl
    exact hnames _ List.mem_cons_self List.nil_prefix
  have helsewhere := hlaid.elsewhere (w.place names) fun f hf others hbegins hplace =>
    hnames f hf (place_inj.mp hplace ▸ hbegins)
  exact helsewhere.trans (hempty names hne)

/-- A provider that looks like a hole, and a plugin that is called like the directory of its headers. -/
theorem run_makes_plugin_hole :
    let r := run ["\x7bplugin_name\x7d", "include"] (.fresh "work")
    PlainName "\x7bplugin_name\x7d" ∧ PlainName "include" ∧ (Workspace.fresh "work").EmptyHere ∧ r.1.exitCode = 0 ∧
      r.2.tree.node? ["CMakeLists.txt", "include", "plugins", "libraries", "work"] =
        some (.file (PluginKit.text "\x7bplugin_name\x7d" "include" buildList).toUTF8) ∧
      r.2.tree.node? ["include", "include", "plugins", "libraries", "work"] = some .directory ∧
      r.2.tree.node? ["include_api.hpp", "include", "plugins", "libraries", "work"] = none ∧
      PluginKit.text "\x7bplugin_name\x7d" "include" buildList =
        "file(GLOB HEADERS \"include/\x7bplugin_name\x7d/plugins/include/*.hpp\")\n\n" ++
        "add_library( \x7bplugin_name\x7d_include\n             $\x7bHEADERS\x7d\n" ++
        "             include_plugin.cpp\n             include_api.cpp\n           )\n\n" ++
        "target_link_libraries( \x7bplugin_name\x7d_include btcm_app btcm_chain fc graphene_db )\n" ++
        "target_include_directories( \x7bplugin_name\x7d_include\n" ++
        "                            PUBLIC \"$\x7bCMAKE_CURRENT_SOURCE_DIR\x7d/include\" )\n" := by
  have hwho : PlainName "\x7bplugin_name\x7d" := by decide
  have hwhat : PlainName "include" := by decide
  have hempty : (Workspace.fresh "work").EmptyHere := emptyHere_fresh "work"
  obtain ⟨-, hcode, hlaid, hnothing⟩ := run_makes_plugin "\x7bplugin_name\x7d" "include" (.fresh "work") hwho hwhat
    (by decide) (by decide) (by decide) hempty
  generalize run ["\x7bplugin_name\x7d", "include"] (.fresh "work") = r at hcode hlaid hnothing ⊢
  have hplace : ∀ names, (Workspace.fresh "work").place names = names.reverse ++ ["work"] := fun _ => rfl
  have hlist := hlaid.file _ List.mem_cons_self
  have hdir := hlaid.directory _ (List.mem_cons_of_mem _ List.mem_cons_self)
    ["libraries", "plugins", "include", "include"] (by decide +kernel) (by decide +kernel)
  have hnone := hnothing ["libraries", "plugins", "include", "include_api.hpp"] (by decide +kernel)
  rw [hplace] at hlist hdir hnone
  exact ⟨hwho, hwhat, hempty, hcode, hlist, hdir, hnone, by decide +kernel⟩

end Command
end Stencil
