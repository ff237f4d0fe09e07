import Stencil.Proofs.Workspace.Parent
import Stencil.Proofs.Workspace.Trail

/-!
# Components and where they lead

Where a path leads is told by its components alone, and joining a relative path to a directory adds components to those
of the directory.

- **`target_eq_foldl`**: to arrive where a path leads, enter its components one after another (`Component.enter`).
- **`exists_components_join`**: the components of a joined path begin with those of the directory.
- **`suffix_foldl_enter`**: without steps up, nothing above a location is ever left.
-/

namespace Stencil
namespace Path

/-! ## Paths under paths -/

theorem isUnder_iff {p dir : Path} : p.isUnder dir = true ↔ dir.components <+: p.components :=
  List.isPrefixOf_iff_prefix

theorem isUnder_refl (p : Path) : p.isUnder p = true := isUnder_iff.mpr (List.prefix_refl _)

theorem isUnder_trans {p q r : Path} (h : p.isUnder q = true) (h' : q.isUnder r = true) : p.isUnder r = true :=
  isUnder_iff.mpr ((isUnder_iff.mp h').trans (isUnder_iff.mp h))

theorem IsParent.isUnder {q p : Path} (h : IsParent q p) : p.isUnder q = true := isUnder_iff.mpr h.components_prefix

/-! ## Absolute paths -/

theorem exists_pieces (p : Path) : ∃ x xs, p.pieces = x :: xs := List.exists_cons_of_ne_nil (split_ne_nil _)

theorem isAbsolute_of_pieces {p : Path} {xs : List (List Char)} (h : p.pieces = [] :: xs) (hne : xs ≠ []) :
    p.isAbsolute = true := by
  obtain ⟨y, ys, rfl⟩ := List.exists_cons_of_ne_nil hne
  have htext : p.text.toList = '/' :: unsplit (y :: ys) := by
    rw [← unsplit_split p.text.toList]
    exact congrArg unsplit h
  rw [isAbsolute, htext]
  rfl

/-- The first piece of a relative path is empty only if there is nothing else. -/
theorem pieces_of_relative {p : Path} {x : List Char} {xs : List (List Char)} (h : p.isAbsolute = false)
    (hp : p.pieces = x :: xs) : x = [] → xs = [] := by
  rintro rfl
  by_contra hne
  rw [isAbsolute_of_pieces hp hne] at h
  cases h

theorem text_eq_empty_iff {p : Path} : p.text = "" ↔ p.pieces = [[]] := by
  constructor
  · intro h
    rw [pieces, h]
    rfl
  · intro h
    have htext := unsplit_split p.text.toList
    rw [show split p.text.toList = [[]] from h] at htext
    exact String.toList_eq_nil_iff.mp htext.symm

/-! ## Joining -/

/-- The steps down and up that the pieces of a path stand for. The root and a leading dot are none. -/
def steps (p : Path) : List Component := p.pieces.filterMap Component.ofPiece

theorem split_append (cs ds : List Char) : split (cs ++ '/' :: ds) = split cs ++ split ds := by
  have hcs := split_ne_nil cs
  have hds := split_ne_nil ds
  have htext : cs ++ '/' :: ds = unsplit (split cs ++ split ds) := by
    rw [unsplit_append hcs hds, unsplit_split, unsplit_split]
  rw [htext, split_unsplit (List.append_ne_nil_of_left_ne_nil hcs _)]
  intro piece hpiece
  rcases List.mem_append.mp hpiece with h | h
  · exact slash_not_mem_of_mem_split h
  · exact slash_not_mem_of_mem_split h

/-- The pieces of a relative path come behind those of a directory, but for an empty piece where the directory ends in
a slash. -/
theorem pieces_join {dir key : Path} (hkey : key.isAbsolute = false) (hdir : dir.text ≠ "") :
    ∃ kept slash, kept ≠ [] ∧ (slash = [] ∨ slash = [[]]) ∧ dir.pieces = kept ++ slash ∧
      (dir.join key).pieces = kept ++ key.pieces := by
  by_cases hslash : dir.endsInSlash = true
  · obtain ⟨cs, hcs⟩ := List.getLast?_eq_some_iff.mp (beq_iff_eq.mp hslash)
    have hjoin : (dir.join key).text.toList = cs ++ '/' :: key.text.toList := by
      simp [join, hkey, hslash, hcs]
    refine ⟨split cs, [[]], split_ne_nil cs, .inr rfl, ?_, ?_⟩
    · rw [pieces, hcs, split_append]
      rfl
    · rw [pieces, hjoin, split_append]
      rfl
  · have hjoin : (dir.join key).text.toList = dir.text.toList ++ '/' :: key.text.toList := by
      simp [join, hkey, hslash, hdir]
    refine ⟨dir.pieces, [], split_ne_nil _, .inl rfl, (List.append_nil _).symm, ?_⟩
    rw [pieces, hjoin, split_append]
    rfl

theorem join_of_text_empty {dir key : Path} (hkey : key.isAbsolute = false) (hdir : dir.text = "") :
    dir.join key = key := by simp [join, hkey, hdir]

section Join

variable {dir key : Path} (hkey : key.isAbsolute = false)
include hkey

theorem names_join : Workspace.names (dir.join key) = Workspace.names dir ++ Workspace.names key := by
  by_cases hdir : dir.text = ""
  · rw [join_of_text_empty hkey hdir, names_eq dir, text_eq_empty_iff.mp hdir]
    rfl
  · obtain ⟨kept, slash, -, hslash, hpieces, hjoin⟩ := pieces_join hkey hdir
    have hnone : namesOf slash = [] := by rcases hslash with rfl | rfl <;> rfl
    rw [names_eq, names_eq, names_eq, hjoin, hpieces, namesOf_append, namesOf_append, hnone, List.append_nil]

theorem isAbsolute_join : (dir.join key).isAbsolute = dir.isAbsolute := by
  by_cases hdir : dir.text = ""
  · rw [join_of_text_empty hkey hdir, hkey, isAbsolute, hdir]
    rfl
  · have hne : dir.text.toList ≠ [] := fun e => hdir (String.toList_eq_nil_iff.mp e)
    obtain ⟨c, cs, hcs⟩ := List.exists_cons_of_ne_nil hne
    unfold join
    rw [hkey]
    simp only [Bool.false_eq_true, if_false]
    split <;> simp [isAbsolute, hcs]

/-- Only a leading dot is a component of a relative path besides its steps. -/
theorem steps_subset : key.steps ⊆ key.components := by
  obtain ⟨x, xs, hp⟩ := exists_pieces key
  have hempty := pieces_of_relative hkey hp
  rw [steps, hp]
  by_cases h₁ : x = []
  · rw [h₁, hempty h₁]
    exact List.nil_subset _
  · rw [components_of_pieces hp fun e => absurd e h₁, firstSteps, if_neg h₁, List.filterMap_cons]
    by_cases h₂ : x = ['.']
    · rw [if_pos h₂, h₂]
      exact List.subset_append_right _ _
    · rw [if_neg h₂]
      cases Component.ofPiece x <;> exact List.Subset.refl _

/-- The steps of a relative path come behind the components of a directory. -/
theorem components_join (hdir : dir.text ≠ "") :
    (dir.join key).components = dir.components ++ key.steps := by
  obtain ⟨kept, slash, hne, hslash, hpieces, hjoin⟩ := pieces_join hkey hdir
  obtain ⟨x, xs, rfl⟩ := List.exists_cons_of_ne_nil hne
  rw [List.cons_append] at hpieces hjoin
  have hidle : slash.filterMap Component.ofPiece = [] := by rcases hslash with rfl | rfl <;> rfl
  have hxs : x = [] → xs ++ slash ≠ [] := by
    rintro rfl e
    exact hdir (text_eq_empty_iff.mpr (hpieces.trans (congrArg _ e)))
  have hjs : x = [] → xs ++ key.pieces ≠ [] := fun _ => List.append_ne_nil_of_right_ne_nil _ (split_ne_nil _)
  rw [components_of_pieces hpieces hxs, components_of_pieces hjoin hjs, List.filterMap_append,
    List.filterMap_append, hidle, List.append_nil, List.append_assoc, steps]

/-- The components of a relative path, or those behind a leading dot, come behind those of a directory. -/
theorem exists_components_join (dir : Path) :
    ∃ extra, (dir.join key).components = dir.components ++ extra ∧ extra ⊆ key.components := by
  by_cases hdir : dir.text = ""
  · refine ⟨key.components, ?_, List.Subset.refl _⟩
    rw [join_of_text_empty hkey hdir]
    have hpieces := text_eq_empty_iff.mp hdir
    simp [components, body, anchor, hpieces, Component.ofPiece, isIdle]
  · exact ⟨_, components_join hkey hdir, steps_subset hkey⟩

end Join

/-! ## Entering components -/

/-- Where a step leads from a location. -/
def Component.enter : Location → Component → Location
  | _, .root => []
  | l, .here => l
  | l, .up => l.tail
  | l, .name text => text :: l

/-- Steps that never lead up go deeper and deeper. -/
theorem suffix_foldl_enter : ∀ {cs : List Component} (l : Location), (∀ c ∈ cs, c ≠ .root ∧ c ≠ .up) →
    l <:+ cs.foldl Component.enter l
  | [], _, _ => List.suffix_refl _
  | c :: cs, l, h => by
    have ih := suffix_foldl_enter (c.enter l) fun d hd => h d (List.mem_cons_of_mem c hd)
    obtain ⟨hroot, hup⟩ := h c List.mem_cons_self
    cases c with
    | root => exact absurd rfl hroot
    | here => exact ih
    | up => exact absurd rfl hup
    | name text => exact (List.suffix_cons text l).trans ih

end Path

namespace Workspace

open Stencil.Path

theorem follow_namesOf : ∀ (ps : List (List Char)) (l : Location),
    follow l (namesOf ps) = (ps.filterMap Component.ofPiece).foldl Component.enter l
  | [], _ => rfl
  | p :: ps, l => by
    by_cases h₁ : p = []
    · subst h₁
      exact follow_namesOf ps l
    rw [namesOf_cons h₁, follow, follow_namesOf ps, List.filterMap_cons]
    by_cases h₂ : p = ['.']
    · subst h₂
      rfl
    by_cases h₃ : p = ['.', '.']
    · subst h₃
      rfl
    · have hdot : String.ofList p ≠ "." := fun e => h₂ (String.ofList_injective e)
      have hdots : String.ofList p ≠ ".." := fun e => h₃ (String.ofList_injective e)
      have hpiece : Component.ofPiece p = some (.name (String.ofList p)) := by
        simp [Component.ofPiece, isIdle, h₁, h₂, h₃]
      rw [next, if_neg hdot, if_neg hdots, hpiece]
      rfl

/-- **Where a path leads.** The components of a path lead there, entered one after another. -/
theorem target_eq_foldl (w : Workspace) (p : Path) : w.target p = p.components.foldl Component.enter w.here := by
  obtain ⟨x, xs, hp⟩ := exists_pieces p
  rw [target, origin, names_eq, hp]
  by_cases habs : p.isAbsolute = true
  · obtain ⟨ys, hne, hys⟩ := pieces_of_isAbsolute habs
    rw [hp] at hys
    obtain ⟨rfl, rfl⟩ := List.cons.inj hys
    rw [if_pos habs, follow_namesOf, components_of_pieces hp fun _ => hne]
    rfl
  · rw [if_neg habs, follow_namesOf]
    have hempty := pieces_of_relative (Bool.eq_false_iff.mpr habs) hp
    by_cases h₁ : x = []
    · have hcomponents : p.components = [] := by
        simp [components, body, anchor, hp, h₁, hempty h₁, Component.ofPiece, isIdle]
      rw [hcomponents, h₁, hempty h₁]
      rfl
    · rw [components_of_pieces hp fun e => absurd e h₁, firstSteps, if_neg h₁, List.foldl_append, List.filterMap_cons]
      by_cases h₂ : x = ['.']
      · rw [if_pos h₂, h₂]
        rfl
      · rw [if_neg h₂]
        cases Component.ofPiece x <;> rfl

end Workspace
end Stencil
