import Mathlib.Data.List.DropRight
import Stencil.Proofs.Workspace.Components

/-!
# The end of a path

The file name of a path is told from what follows its last slash; if that is no step, the step before it counts.

- **`getLast?_pieces`**: the last piece of a path is its last segment.
- **`fileName?_join_of_step`**: the last step of a path gives the file name, whatever directory it is joined to.
- **`fileName?_join_of_no_step`**: a path without steps has the file name of the directory that it is joined to.
-/

namespace Stencil

namespace Path

variable {p dir key : Path} {c : Component}

/-! ## The last segment -/

/-- What follows the last slash of a path; the whole path if it has none. -/
def lastSegment (p : Path) : String := String.ofList (p.text.toList.rtakeWhile (· ≠ '/'))

theorem all_ne_slash {cs : List Char} (h : '/' ∉ cs) : ∀ c ∈ cs, decide (c ≠ '/') = true := by
  intro c hc
  rw [decide_eq_true_iff]
  rintro rfl
  exact h hc

theorem rtakeWhile_append {last : List Char} (cs : List Char) (h : '/' ∉ last) :
    (cs ++ last).rtakeWhile (· ≠ '/') = cs.rtakeWhile (· ≠ '/') ++ last := by
  have hlast := all_ne_slash (mt List.mem_reverse.mp h)
  rw [List.rtakeWhile, List.reverse_append, List.takeWhile_append_of_pos hlast, List.reverse_append,
    List.reverse_reverse, List.rtakeWhile]

/-- Nothing counts that stands before a slash. -/
theorem rtakeWhile_slash (cs last : List Char) :
    (cs ++ '/' :: last).rtakeWhile (· ≠ '/') = last.rtakeWhile (· ≠ '/') := by
  have hreverse : (cs ++ '/' :: last).reverse = last.reverse ++ '/' :: cs.reverse := by simp
  rw [List.rtakeWhile, hreverse, List.takeWhile_append, List.rtakeWhile]
  split
  · next hall =>
    have hwhole : last.reverse.takeWhile (· ≠ '/') = last.reverse :=
      (List.takeWhile_prefix _).eq_of_length hall
    rw [hwhole]
    simp
  · rfl

/-- **The last piece** of a path is its last segment. -/
theorem getLast?_pieces (p : Path) : p.pieces.getLast? = some p.lastSegment.toList := by
  rw [lastSegment, String.toList_ofList]
  obtain ⟨init, last, hsplit⟩ := (List.eq_nil_or_concat' p.pieces).resolve_left (split_ne_nil _)
  have hlast : last ∈ p.pieces := by
    rw [hsplit]
    exact List.mem_append_right _ (List.mem_singleton_self _)
  have hwhole : last.rtakeWhile (· ≠ '/') = last :=
    List.rtakeWhile_eq_self_iff.mpr (all_ne_slash (slash_not_mem_of_mem_split hlast))
  have htext : p.text.toList = unsplit (init ++ [last]) := by
    rw [← hsplit]
    exact (unsplit_split _).symm
  rw [hsplit, List.getLast?_concat, htext]
  by_cases hinit : init = []
  · rw [hinit]
    exact congrArg some hwhole.symm
  · rw [unsplit_append hinit (by simp)]
    exact congrArg some ((rtakeWhile_slash _ last).trans hwhole).symm

/-- What is appended without a slash is appended to the last segment. -/
theorem lastSegment_append (text : String) {suffix : String} (h : '/' ∉ suffix.toList) :
    (Path.mk (text ++ suffix)).lastSegment = (Path.mk text).lastSegment ++ suffix := by
  rw [lastSegment, String.toList_append, rtakeWhile_append _ h, String.ofList_append, String.ofList_toList, lastSegment]

/-- What follows a slash has the last segment. -/
theorem lastSegment_behind_slash (before text : String) :
    (Path.mk (before ++ "/" ++ text)).lastSegment = (Path.mk text).lastSegment := by
  have htext : (before ++ "/" ++ text).toList = before.toList ++ '/' :: text.toList := by simp
  rw [lastSegment, htext, rtakeWhile_slash, lastSegment]

/-- A text without slashes is its own last segment. -/
theorem lastSegment_of_no_slash {text : String} (h : '/' ∉ text.toList) : (Path.mk text).lastSegment = text := by
  rw [lastSegment, List.rtakeWhile_eq_self_iff.mpr (all_ne_slash h), String.ofList_toList]

/-- The last segment is empty if the path is empty or ends in a slash. -/
theorem lastSegment_eq_empty_iff : p.lastSegment = "" ↔ p.text = "" ∨ p.endsInSlash = true := by
  rw [lastSegment, String.ofList_eq_empty_iff, List.rtakeWhile_eq_nil_iff, endsInSlash, beq_iff_eq,
    ← String.toList_eq_nil_iff]
  cases hlast : p.text.toList.getLast? with
  | none => simp [List.getLast?_eq_none_iff.mp hlast]
  | some c =>
    have hne : p.text.toList ≠ [] := by
      intro e
      rw [e] at hlast
      cases hlast
    rw [List.getLast?_eq_some_getLast hne] at hlast
    simp [hne, Option.some.inj hlast]

/-! ## The last step -/

theorem ofPiece_toList {text : String} (h : text ≠ "") (h' : text ≠ ".") :
    Component.ofPiece text.toList = some (if text = ".." then .up else .name text) := by
  have hempty : text.toList ≠ [] := fun e => h (String.toList_injective e)
  have hdot : text.toList ≠ ['.'] := fun e => h' (String.toList_injective e)
  have hdots : text.toList = "..".toList ↔ text = ".." := String.toList_inj
  have hspell : "..".toList = ['.', '.'] := rfl
  rw [hspell] at hdots
  have hidle : isIdle text.toList = false := by simp [isIdle, hempty, hdot]
  simp only [Component.ofPiece, hidle, hdots, String.ofList_toList, Bool.false_eq_true, if_false]
  split <;> rfl

/-- A last segment that is neither empty nor a dot is the last step. -/
theorem getLast?_steps (h : p.lastSegment ≠ "") (h' : p.lastSegment ≠ ".") :
    p.steps.getLast? = some (if p.lastSegment = ".." then .up else .name p.lastSegment) := by
  obtain ⟨init, hinit⟩ := List.getLast?_eq_some_iff.mp (getLast?_pieces p)
  have hsteps : p.steps = init.filterMap Component.ofPiece ++
      [if p.lastSegment = ".." then .up else .name p.lastSegment] := by
    rw [steps, hinit, List.filterMap_append, List.filterMap_cons, ofPiece_toList h h']
    rfl
  rw [hsteps]
  exact List.getLast?_concat

/-- The last step is the last component. -/
theorem getLast?_components (h : p.steps.getLast? = some c) : p.components.getLast? = some c := by
  obtain ⟨x, xs, hp⟩ := exists_pieces p
  have hxs : x = [] → xs ≠ [] := by
    rintro rfl rfl
    rw [steps, hp] at h
    cases h
  rw [steps, hp, List.filterMap_cons] at h
  rw [components_of_pieces hp hxs, List.getLast?_append]
  -- the first piece counts only if no step follows it; it is no anchor then, since it is a step
  cases hlast : (xs.filterMap Component.ofPiece).getLast? with
  | some c' =>
    rw [Option.some_or]
    cases hx : Component.ofPiece x with
    | none => rwa [hx, hlast] at h
    | some c₀ =>
      rw [hx, List.getLast?_cons, hlast] at h
      exact h
  | none =>
    have hnil : xs.filterMap Component.ofPiece = [] := List.getLast?_eq_none_iff.mp hlast
    rw [hnil] at h
    cases hx : Component.ofPiece x with
    | none =>
      rw [hx] at h
      cases h
    | some c₀ =>
      rw [hx] at h
      have hne : x ≠ [] ∧ x ≠ ['.'] := by constructor <;> rintro rfl <;> cases hx
      rw [firstSteps, if_neg hne.1, if_neg hne.2, hx]
      exact h

/-- The last step of a path is also that of the path joined to a directory. -/
theorem getLast?_steps_join (dir : Path) (h : key.steps.getLast? = some c) :
    (dir.join key).steps.getLast? = some c := by
  by_cases habs : key.isAbsolute = true
  · rwa [join_of_absolute habs]
  have hrel := Bool.eq_false_iff.mpr habs
  by_cases hdir : dir.text = ""
  · rwa [join_of_text_empty hrel hdir]
  · obtain ⟨kept, -, -, -, -, hjoin⟩ := pieces_join hrel hdir
    rw [steps, hjoin, List.filterMap_append, List.getLast?_append]
    exact congrArg (Option.or · _) h

/-- The name that a step leads down to. -/
def Component.name? : Component → Option String
  | .name text => some text
  | _ => none

/-- **A step in the key**: the file name of the joined path is that of the last step. -/
theorem fileName?_join_of_step (dir : Path) (h : key.steps.getLast? = some c) :
    (dir.join key).fileName? = c.name? := by
  rw [fileName?, getLast?_components (getLast?_steps_join dir h)]
  cases c <;> rfl

/-- A path without steps has no file name. -/
theorem fileName?_of_no_step (h : p.steps = []) : p.fileName? = none := by
  obtain ⟨x, xs, hp⟩ := exists_pieces p
  rw [steps, hp, List.filterMap_cons] at h
  have hx : Component.ofPiece x = none := by
    cases hx : Component.ofPiece x with
    | none => rfl
    | some c =>
      rw [hx] at h
      cases h
  have hxs : xs.filterMap Component.ofPiece = [] := by
    rw [hx] at h
    exact h
  by_cases hempty : x = [] ∧ xs = []
  · rw [fileName?, components, anchor, body, anchor, hp, hempty.1, hempty.2]
    rfl
  · rw [fileName?, components_of_pieces hp fun e exs => hempty ⟨e, exs⟩, hxs, List.append_nil, firstSteps]
    by_cases h₁ : x = []
    · rw [if_pos h₁]
      rfl
    by_cases h₂ : x = ['.']
    · rw [if_neg h₁, if_pos h₂]
      rfl
    · rw [if_neg h₁, if_neg h₂, hx]
      rfl

/-- **No step in the key**: the file name of the joined path is that of the directory. -/
theorem fileName?_join_of_no_step (hrel : key.isAbsolute = false) (h : key.steps = []) :
    (dir.join key).fileName? = dir.fileName? := by
  by_cases hdir : dir.text = ""
  · have hsteps : dir.steps = [] := by
      rw [steps, text_eq_empty_iff.mp hdir]
      rfl
    rw [join_of_text_empty hrel hdir, fileName?_of_no_step h, fileName?_of_no_step hsteps]
  · rw [fileName?, components_join hrel hdir, h, List.append_nil, fileName?]

end Path

/-- A path with a file name leads down to that name. -/
theorem Workspace.head?_target {p : Path} {name : String} (w : Workspace) (h : p.fileName? = some name) :
    (w.target p).head? = some name := by
  have hlast : p.components.getLast? = some (.name name) := by
    unfold Path.fileName? at h
    split at h
    · next text hlast => rwa [Option.some.inj h] at hlast
    · cases h
  obtain ⟨init, hinit⟩ := List.getLast?_eq_some_iff.mp hlast
  rw [target_eq_foldl, hinit, List.foldl_append]
  rfl

end Stencil
