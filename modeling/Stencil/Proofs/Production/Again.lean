import Stencil.Proofs.Production.Prefix

/-!
# Productions repeated

What a production leaves, whether it went through or failed, is what the same production leaves again.

- **`attempt_again`**: a pattern that failed fails again on what it left, which are at most more directories.
- **`produce_again`**: a repeated production has the same paths or fails at the same pattern, and changes nothing.

The failure itself need not be the same: a directory that could not be made because a file stands in its place is, the
second time, a directory whose way leads through a file.
-/

namespace Stencil

variable {dir : Path} {b : Bindings} {w : Workspace} {p : FilePattern}

/-- A pattern that fails leaves at most more directories, and fails on them again. -/
theorem attempt_again {f : Failure} (h : p.failure? dir b w = some f) :
    (∃ ls, Workspace.Grown w (p.attempt dir b w) ls) ∧
    (∃ f', p.failure? dir b (p.attempt dir b w) = some f') ∧
    p.attempt dir b (p.attempt dir b w) = p.attempt dir b w := by
  cases hd : p.draft dir b with
  | error f' =>
    simp only [FilePattern.attempt, FilePattern.failure?, hd]
    exact ⟨⟨[], Workspace.Grown.refl _ _⟩, ⟨f', rfl⟩, trivial⟩
  | ok d =>
    simp only [FilePattern.failure?, hd] at h
    simp only [FilePattern.attempt, FilePattern.failure?, hd]
    obtain ⟨f', hf', hw⟩ := Workspace.install_again h
    exact ⟨⟨_, Workspace.grown_of_install h⟩, ⟨f', hf'⟩, hw⟩

/-- **Once more.** A production that is repeated on what it left changes nothing. It goes through if and only if it went
through before, with the same paths; otherwise it fails at the same pattern. -/
theorem produce_again (k : Kit) (dir : Path) (b : Bindings) (w : Workspace) :
    let r := k.produce dir b w
    let r' := k.produce dir b r.workspace
    let n := firstFailure dir b w k.patterns
    r'.workspace = r.workspace ∧
    (∀ paths, r'.outcome = .ok paths ↔ r.outcome = .ok paths) ∧
    firstFailure dir b r.workspace k.patterns = n ∧
    ∀ f, r.outcome = .error f → failureAt dir b w k.patterns n = some f ∧
      ∃ f', failureAt dir b r.workspace k.patterns n = some f' ∧ r'.outcome = .error f' := by
  obtain ⟨before, after, ds, hps, hd, hw, hstop⟩ := exists_run dir b w k.patterns
  have hn : firstFailure dir b w k.patterns = before.length := by
    rw [hps]
    exact firstFailure_eq hd hw hstop
  simp only [Kit.produce, hn]
  rw [hps]
  cases after with
  | nil =>
    obtain ⟨houtcome, hworkspace⟩ := produce_of_drafted hd hw
    have hgrown : Workspace.Grown (w.writeAll ds) (w.writeAll ds) [] := Workspace.Grown.refl _ _
    have hw' := Workspace.writesAll_again hw hgrown
    have hsame := Workspace.writeAll_again hw hgrown
    obtain ⟨houtcome', hworkspace'⟩ := produce_of_drafted hd hw'
    have hfirst : firstFailure dir b (w.writeAll ds) (before ++ []) = before.length :=
      firstFailure_eq hd hw' fun p rest h => by cases h
    rw [List.append_nil] at hfirst ⊢
    rw [hworkspace]
    refine ⟨hworkspace'.trans hsame, fun paths => ?_, hfirst, ?_⟩
    · rw [houtcome, houtcome']
    · intro f hf
      rw [houtcome] at hf
      cases hf
  | cons p rest =>
    obtain ⟨f, hf⟩ := hstop p rest rfl
    obtain ⟨houtcome, hworkspace⟩ := produce_ignores_rest hd hw hf rest
    obtain ⟨⟨ls, hgrown⟩, ⟨f', hf'⟩, hattempt⟩ := attempt_again hf
    have hw' := Workspace.writesAll_again hw hgrown
    have hsame := Workspace.writeAll_again hw hgrown
    rw [← hsame] at hf'
    obtain ⟨houtcome', hworkspace'⟩ := produce_ignores_rest hd hw' hf' rest
    have hfirst : firstFailure dir b (p.attempt dir b (w.writeAll ds)) (before ++ p :: rest) = before.length := by
      apply firstFailure_eq hd hw'
      intro q rest' h
      obtain ⟨rfl, rfl⟩ := List.cons.inj h
      exact ⟨f', hf'⟩
    rw [hworkspace]
    refine ⟨?_, fun paths => ?_, hfirst, ?_⟩
    · rw [hworkspace', hsame]
      exact hattempt
    · rw [houtcome, houtcome']
      constructor <;> intro h <;> cases h
    · intro g hg
      rw [houtcome] at hg
      obtain rfl := Except.error.inj hg
      refine ⟨?_, f', ?_, houtcome'⟩
      · rw [failureAt_stop hd, List.head?_cons, Option.bind_some]
        exact hf
      · rw [failureAt_stop hd, List.head?_cons, Option.bind_some]
        exact hf'

end Stencil
