import Stencil.Workspace
import Mathlib.Data.List.TakeWhile

/-!
# Parents, name by name

The parent of a path is followed like the path itself, but for its last step and the dots around it:

- **`components_of_pieces`**: the components of a path, read off its pieces one by one.
- **`isParent_of_parent?`**: the names of a path are those of its parent and then at most one step (`OneStep`), its
  components begin with those of its parent, and a parent does not end in a dot, unless it is the dot (`IsParent`).
- **`IsParent.isAbsolute_eq`**, **`IsParent.usable`**: a parent starts where the path starts, and can be followed if the
  path can.
-/

namespace Stencil
namespace Path

/-! ## Splitting and joining pieces -/

theorem slash_not_mem_of_mem_split : ∀ {cs : List Char} {piece : List Char}, piece ∈ split cs → '/' ∉ piece
  | [], piece, h => by
    rw [split, List.mem_singleton] at h
    simp [h]
  | c :: cs, piece, h => by
    unfold split at h
    split at h
    · rcases List.mem_cons.mp h with rfl | h
      · exact List.not_mem_nil
      · exact slash_not_mem_of_mem_split h
    · next hc =>
      cases hs : split cs with
      | nil => exact absurd hs (split_ne_nil cs)
      | cons p ps =>
        rw [hs] at h
        have hp : '/' ∉ p := slash_not_mem_of_mem_split (by rw [hs]; exact List.mem_cons_self)
        rcases List.mem_cons.mp h with rfl | h
        · intro hm
          rcases List.mem_cons.mp hm with e | hm
          · exact hc e.symm
          · exact hp hm
        · exact slash_not_mem_of_mem_split (by rw [hs]; exact List.mem_cons_of_mem _ h)

theorem split_of_slash_not_mem : ∀ {piece : List Char}, '/' ∉ piece → split piece = [piece]
  | [], _ => rfl
  | c :: cs, h => by
    have hc : c ≠ '/' := fun e => h (by rw [e]; exact List.mem_cons_self)
    have hcs : '/' ∉ cs := fun e => h (List.mem_cons_of_mem c e)
    simp [split, hc, split_of_slash_not_mem hcs]

theorem split_append_slash : ∀ {piece : List Char} (cs : List Char), '/' ∉ piece →
    split (piece ++ '/' :: cs) = piece :: split cs
  | [], _, _ => by simp [split]
  | c :: piece, cs, h => by
    have hc : c ≠ '/' := fun e => h (by rw [e]; exact List.mem_cons_self)
    have hpiece : '/' ∉ piece := fun e => h (List.mem_cons_of_mem c e)
    simp [split, hc, split_append_slash cs hpiece]

/-- Pieces without slashes are found again in what they spell. -/
theorem split_unsplit : ∀ {ps : List (List Char)}, ps ≠ [] → (∀ p ∈ ps, '/' ∉ p) → split (unsplit ps) = ps
  | [], h, _ => absurd rfl h
  | [p], _, h => split_of_slash_not_mem (h p List.mem_cons_self)
  | p :: q :: ps, _, h => by
    have ih : split (unsplit (q :: ps)) = q :: ps :=
      split_unsplit (by simp) fun r hr => h r (List.mem_cons_of_mem p hr)
    rw [unsplit, split_append_slash _ (h p List.mem_cons_self), ih]

theorem unsplit_append : ∀ {ps qs : List (List Char)}, ps ≠ [] → qs ≠ [] →
    unsplit (ps ++ qs) = unsplit ps ++ '/' :: unsplit qs
  | [], _, h, _ => absurd rfl h
  | [p], [], _, h => absurd rfl h
  | [p], q :: qs, _, _ => rfl
  | p :: r :: ps, qs, _, h => by
    have ih : unsplit (r :: ps ++ qs) = unsplit (r :: ps) ++ '/' :: unsplit qs := unsplit_append (by simp) h
    simp only [List.cons_append] at ih ⊢
    simp [unsplit, ih]

theorem unsplit_prefix_append (ps qs : List (List Char)) : unsplit ps <+: unsplit (ps ++ qs) := by
  by_cases hp : ps = []
  · subst hp
    exact List.nil_prefix
  by_cases hq : qs = []
  · subst hq
    simp
  · rw [unsplit_append hp hq]
    exact List.prefix_append _ _

/-! ## Components, piece by piece -/

/-- What the first piece stands for, if it is not all of an empty path. -/
def firstSteps (piece : List Char) : List Component :=
  if piece = [] then [.root] else if piece = ['.'] then [.here] else (Component.ofPiece piece).toList

theorem components_of_pieces {p : Path} {x : List Char} {xs : List (List Char)} (h : p.pieces = x :: xs)
    (hx : x = [] → xs ≠ []) : p.components = firstSteps x ++ xs.filterMap Component.ofPiece := by
  by_cases h₁ : x = []
  · subst h₁
    obtain ⟨y, ys, rfl⟩ := List.exists_cons_of_ne_nil (hx rfl)
    simp [components, body, anchor, h, firstSteps]
  by_cases h₂ : x = ['.']
  · subst h₂
    simp [components, body, anchor, h, firstSteps]
  · have ha : p.anchor = none := by
      rw [anchor, h]
      split
      · next e => exact absurd (List.cons.inj e).1 h₁
      · next e => exact absurd (List.cons.inj e).1 h₂
      · rfl
    rw [components, body, ha, h, firstSteps, if_neg h₁, if_neg h₂]
    cases hs : Component.ofPiece x <;> simp [hs]

/-- Paths that start with the same piece have components as their other pieces have. -/
theorem components_prefix_of_pieces {q p : Path} {x : List Char} {xs ys : List (List Char)} (hq : q.pieces = x :: xs)
    (hp : p.pieces = x :: ys) (hx : x = [] → xs ≠ [] ∧ ys ≠ [])
    (h : xs.filterMap Component.ofPiece <+: ys.filterMap Component.ofPiece) : q.components <+: p.components := by
  rw [components_of_pieces hq fun e => (hx e).1, components_of_pieces hp fun e => (hx e).2]
  exact (List.prefix_append_right_inj _).mpr h

/-! ## The pieces of a parent -/

/-- Pieces that stand for no step. -/
def Idle (ps : List (List Char)) : Prop := ∀ p ∈ ps, isIdle p = true

/-- Idle pieces at the end can be cut off. -/
theorem exists_idle_end (ps : List (List Char)) :
    ∃ idle, ps = (ps.reverse.dropWhile isIdle).reverse ++ idle ∧ Idle idle := by
  refine ⟨(ps.reverse.takeWhile isIdle).reverse, ?_, ?_⟩
  · rw [← List.reverse_append, List.takeWhile_append_dropWhile, List.reverse_reverse]
  · intro p hp
    exact List.mem_takeWhile_imp (List.mem_reverse.mp hp)

/-- What idle pieces are cut off from does not end idly. -/
theorem isIdle_getLast? {ps : List (List Char)} {p : List Char}
    (h : (ps.dropWhile isIdle).reverse.getLast? = some p) : isIdle p = false := by
  have hhead := List.head?_dropWhile_not isIdle ps
  rw [List.getLast?_reverse] at h
  simpa [h] using hhead

/-- The last step is a piece with idle pieces around it, and what is kept before them does not end idly. -/
theorem eq_of_dropLastStep {ps kept : List (List Char)} (h : dropLastStep ps = some kept) :
    (∃ idle step idle', ps = kept ++ (idle ++ step :: idle') ∧ Idle idle ∧ Idle idle' ∧ isIdle step = false) ∧
      ∀ p, kept.getLast? = some p → isIdle p = false := by
  unfold dropLastStep at h
  split at h
  · cases h
  · next step before heq =>
    simp only [Option.some.injEq] at h
    subst h
    refine ⟨?_, fun p hp => isIdle_getLast? hp⟩
    obtain ⟨idle', hps, hidle'⟩ := exists_idle_end ps
    obtain ⟨idle, hbefore, hidle⟩ := exists_idle_end before.reverse
    rw [heq, List.reverse_cons] at hps
    rw [List.reverse_reverse] at hbefore
    refine ⟨idle, step, idle', ?_, hidle, hidle', ?_⟩
    · rw [hps, hbefore]
      simp
    · have hhead := List.head?_dropWhile_not isIdle ps.reverse
      simpa [heq] using hhead

/-- Without a last step all pieces are idle. -/
theorem idle_of_dropLastStep {ps : List (List Char)} (h : dropLastStep ps = none) : Idle ps := by
  unfold dropLastStep at h
  split at h
  · next heq =>
    obtain ⟨idle, hps, hidle⟩ := exists_idle_end ps
    rw [heq, List.reverse_nil, List.nil_append] at hps
    rw [hps]
    exact hidle
  · cases h

/-! ## The names of a parent -/

/-- The names that pieces are followed by. -/
def namesOf (ps : List (List Char)) : List String := (ps.filter (· ≠ [])).map String.ofList

theorem names_eq (p : Path) : Workspace.names p = namesOf p.pieces := rfl

@[simp] theorem namesOf_nil : namesOf [] = [] := rfl

theorem namesOf_cons {p : List Char} (h : p ≠ []) (ps : List (List Char)) :
    namesOf (p :: ps) = String.ofList p :: namesOf ps := by simp [namesOf, h]

theorem namesOf_append (ps qs : List (List Char)) : namesOf (ps ++ qs) = namesOf ps ++ namesOf qs := by
  simp [namesOf]

/-- Idle pieces are followed by dots only. -/
theorem namesOf_idle {ps : List (List Char)} (h : Idle ps) : ∀ n ∈ namesOf ps, n = "." := by
  intro n hn
  simp only [namesOf, List.mem_map, List.mem_filter, decide_eq_true_eq] at hn
  obtain ⟨p, ⟨hp, hne⟩, rfl⟩ := hn
  have hidle := h p hp
  simp only [isIdle, Bool.or_eq_true, beq_iff_eq, hne, false_or] at hidle
  rw [hidle]

/-- Names that lead on by at most one step: unless they end in a dot, all before the last are dots. -/
def OneStep (names : List String) : Prop :=
  names ≠ [] ∧ (names.getLast? ≠ some "." → ∀ n ∈ names.dropLast, n = ".")

theorem OneStep.ne_nil {ps : List (List Char)} (h : OneStep (namesOf ps)) : ps ≠ [] := by
  rintro rfl
  exact h.1 rfl

theorem oneStep_of_dots {names : List String} (hne : names ≠ []) (h : ∀ n ∈ names, n = ".") : OneStep names :=
  ⟨hne, fun _ n hn => h n (List.dropLast_subset _ hn)⟩

theorem oneStep_of_step {idle idle' : List (List Char)} {step : List Char} (h : Idle idle) (h' : Idle idle')
    (hstep : isIdle step = false) : OneStep (namesOf (idle ++ step :: idle')) := by
  have hne : step ≠ [] := by rintro rfl; exact absurd hstep (by decide)
  rw [namesOf_append, namesOf_cons hne]
  refine ⟨by simp, fun hlast => ?_⟩
  rcases List.eq_nil_or_concat (namesOf idle') with hdots | ⟨dots, d, hdots⟩
  · rw [hdots, List.dropLast_concat]
    exact namesOf_idle h
  · have hd : d = "." := namesOf_idle h' d (by rw [hdots]; simp)
    exact absurd (by rw [hdots, hd]; simp [List.getLast?_append, List.getLast?_cons]) hlast

/-- What the last step is cut off with leads on by one step. -/
theorem oneStep_of_dropLastStep {ps kept : List (List Char)} (h : dropLastStep ps = some kept) :
    ∃ mid, ps = kept ++ mid ∧ OneStep (namesOf mid) := by
  obtain ⟨⟨idle, step, idle', hps, hidle, hidle', hstep⟩, -⟩ := eq_of_dropLastStep h
  exact ⟨_, hps, oneStep_of_step hidle hidle' hstep⟩

/-- The last name is the last piece, if that is a step. -/
theorem getLast?_namesOf {ps : List (List Char)} {p : List Char} (h : ps.getLast? = some p) (hp : isIdle p = false) :
    (namesOf ps).getLast? ≠ some "." := by
  obtain ⟨before, rfl⟩ := List.getLast?_eq_some_iff.mp h
  have hne : p ≠ [] := by rintro rfl; exact absurd hp (by decide)
  rw [namesOf_append, namesOf_cons hne, namesOf_nil, List.getLast?_concat]
  intro e
  have hdot : p = ['.'] := by rw [← String.toList_ofList (l := p), Option.some.inj e]; rfl
  rw [hdot] at hp
  exact absurd hp (by decide)

theorem pieces_of_isAbsolute {p : Path} (h : p.isAbsolute = true) : ∃ xs, xs ≠ [] ∧ p.pieces = [] :: xs := by
  obtain ⟨cs, hcs⟩ := List.head?_eq_some_iff.mp (beq_iff_eq.mp h)
  exact ⟨split cs, split_ne_nil cs, by rw [pieces, hcs, split, if_pos rfl]⟩

theorem anchor_of_isAbsolute {p : Path} (h : p.isAbsolute = true) : p.anchor = some .root := by
  obtain ⟨xs, hne, hp⟩ := pieces_of_isAbsolute h
  obtain ⟨x, xs, rfl⟩ := List.exists_cons_of_ne_nil hne
  rw [anchor, hp]

/-- What following a path and following its parent have in common. -/
structure IsParent (q p : Path) : Prop where
  names_eq : ∃ rest, OneStep rest ∧ Workspace.names p = Workspace.names q ++ rest
  components_prefix : q.components <+: p.components
  text_prefix : q.text.toList <+: p.text.toList
  not_isAbsolute : q.text = "" → p.isAbsolute = false
  last_name : (Workspace.names q).getLast? = some "." → q.text = "."

/-- A path without anything in front of its one step. -/
theorem isParent_empty {p : Path} (h : p.anchor ≠ some .root) (hp : OneStep (Workspace.names p)) :
    IsParent ⟨""⟩ p where
  names_eq := ⟨_, hp, rfl⟩
  components_prefix := List.nil_prefix
  text_prefix := List.nil_prefix
  not_isAbsolute _ := Bool.eq_false_iff.mpr fun e => h (anchor_of_isAbsolute e)
  last_name h := by cases h

/-- A path that starts with the pieces of its parent. -/
theorem isParent_of_pieces {p : Path} {ks mid : List (List Char)} (hp : p.pieces = ks ++ mid) (hne : ks ≠ [])
    (hmid : OneStep (namesOf mid)) (hlast : ks = [['.']] ∨ ∀ k, ks.getLast? = some k → isIdle k = false)
    (htext : ks ≠ [[]]) : IsParent ⟨String.ofList (unsplit ks)⟩ p := by
  have hpieces : (Path.mk (String.ofList (unsplit ks))).pieces = ks := by
    rw [pieces, String.toList_ofList, split_unsplit hne]
    intro k hk
    exact slash_not_mem_of_mem_split (hp ▸ List.mem_append_left mid hk : k ∈ p.pieces)
  refine ⟨⟨namesOf mid, hmid, ?_⟩, ?_, ?_, fun e => ?_, fun hdot => ?_⟩
  · rw [names_eq, names_eq, hpieces, hp, namesOf_append]
  · obtain ⟨x, xs, rfl⟩ := List.exists_cons_of_ne_nil hne
    have hp' : p.pieces = x :: (xs ++ mid) := hp
    refine components_prefix_of_pieces hpieces hp' ?_ ?_
    · rintro rfl
      have hxs : xs ≠ [] := fun e => htext (by rw [e])
      exact ⟨hxs, List.append_ne_nil_of_left_ne_nil hxs mid⟩
    · rw [List.filterMap_append]
      exact List.prefix_append _ _
  · rw [String.toList_ofList, ← unsplit_split p.text.toList]
    show _ <+: unsplit p.pieces
    rw [hp]
    exact unsplit_prefix_append ks mid
  · have hnil : (Path.mk (String.ofList (unsplit ks))).pieces = [[]] := by
      rw [pieces]
      exact congrArg (fun t => split t.toList) e
    exact absurd (hpieces.symm.trans hnil) htext
  · rcases hlast with rfl | hlast
    · rfl
    · rw [names_eq, hpieces] at hdot
      cases hk : ks.getLast? with
      | none => exact absurd (List.getLast?_eq_none_iff.mp hk) hne
      | some k => exact absurd hdot (getLast?_namesOf hk (hlast k hk))

/-- A path right below the root, which is spelled with a slash of its own. -/
theorem isParent_root {p : Path} {mid : List (List Char)} (hp : p.pieces = [] :: mid) (hmid : OneStep (namesOf mid)) :
    IsParent ⟨"/"⟩ p where
  names_eq := by
    refine ⟨_, hmid, ?_⟩
    rw [names_eq p, hp]
    rfl
  components_prefix := by
    rw [components_of_pieces hp fun _ => hmid.ne_nil]
    exact List.prefix_append [Component.root] _
  text_prefix := by
    have hne := hmid.ne_nil
    rw [← unsplit_split p.text.toList]
    show _ <+: unsplit p.pieces
    rw [hp, ← List.singleton_append, unsplit_append (by simp) hne]
    exact List.prefix_append ['/'] _
  not_isAbsolute e := absurd e (by decide)
  last_name e := absurd e (by decide)

theorem pieces_of_anchor_none {p : Path} (h : p.anchor = none) : p.pieces = p.body := by simp [body, h]

theorem anchor_eq_some {p : Path} {c : Component} (h : p.anchor = some c) :
    (c = .root ∧ p.pieces.headD [] = []) ∨ (c = .here ∧ p.pieces.headD [] = ['.']) := by
  unfold anchor at h
  split at h <;> simp_all

/-- A path that ends in a name has a parent. -/
theorem exists_parent? {p : Path} (h : p.fileName? ≠ none) : ∃ q, p.parent? = some q := by
  have hkept : dropLastStep p.body ≠ none := by
    -- without a last step there would be no name after the anchor, and the anchor is no name
    intro hnone
    apply h
    have hnames : p.body.filterMap Component.ofPiece = [] := by
      rw [List.filterMap_eq_nil_iff]
      intro piece hpiece
      rw [Component.ofPiece, if_pos (idle_of_dropLastStep hnone piece hpiece)]
    rw [fileName?, components, hnames, List.append_nil]
    cases ha : p.anchor with
    | none => rfl
    | some c => rcases anchor_eq_some ha with ⟨rfl, -⟩ | ⟨rfl, -⟩ <;> rfl
  obtain ⟨kept, hkept⟩ := Option.ne_none_iff_exists'.mp hkept
  unfold parent?
  rw [hkept]
  cases p.anchor with
  | none => exact ⟨_, rfl⟩
  | some c => cases c <;> cases kept <;> exact ⟨_, rfl⟩

theorem pieces_of_anchor_here {p : Path} (h : p.anchor = some .here) : p.pieces = ['.'] :: p.body := by
  rcases anchor_eq_some h with ⟨e, _⟩ | ⟨_, hhead⟩
  · cases e
  · rw [← hhead]
    exact pieces_eq_of_anchor h

/-- **Parents.** The parent of a path is followed like the path, but for one step. -/
theorem isParent_of_parent? {p q : Path} (h : p.parent? = some q) : IsParent q p := by
  unfold parent? at h
  split at h
  · cases h
  · next kept ha hd =>
    -- no anchor: the pieces are all in the body
    cases h
    obtain ⟨mid, hbody, hmid⟩ := oneStep_of_dropLastStep hd
    have hlast := (eq_of_dropLastStep hd).2
    have hp : p.pieces = kept ++ mid := by rw [pieces_of_anchor_none ha, hbody]
    by_cases hk : kept = []
    · subst hk
      exact isParent_empty (by simp [ha]) (by rw [names_eq, hp]; exact hmid)
    · refine isParent_of_pieces hp hk hmid (.inr hlast) ?_
      rintro rfl
      exact absurd (hlast [] rfl) (by decide)
  · next ha hd =>
    -- a dot and nothing but dots behind it
    cases h
    have hp := pieces_of_anchor_here ha
    have hidle : Idle p.pieces := by
      rw [hp]
      intro x hx
      rcases List.mem_cons.mp hx with rfl | hx
      · rfl
      · exact idle_of_dropLastStep hd x hx
    refine isParent_empty (by simp [ha]) (oneStep_of_dots ?_ (namesOf_idle hidle))
    rw [names_eq, hp, namesOf_cons (by simp)]
    exact List.cons_ne_nil _ _
  · cases h
  · next ha hd =>
    -- the parent is the dot
    cases h
    obtain ⟨mid, hbody, hmid⟩ := oneStep_of_dropLastStep hd
    have hp : p.pieces = [['.']] ++ mid := by
      rw [pieces_of_anchor_here ha, hbody]
      rfl
    exact isParent_of_pieces hp (by simp) hmid (.inl rfl) (by simp)
  · next c hc ha hd =>
    cases h
    obtain ⟨mid, hbody, hmid⟩ := oneStep_of_dropLastStep hd
    have hhead : p.pieces.headD [] = [] := by
      rcases anchor_eq_some ha with ⟨_, hhead⟩ | ⟨e, _⟩
      · exact hhead
      · exact absurd e hc
    refine isParent_root ?_ hmid
    rw [pieces_eq_of_anchor ha, hhead, hbody]
    rfl
  · next c kept hc hk ha hd =>
    cases h
    obtain ⟨mid, hbody, hmid⟩ := oneStep_of_dropLastStep hd
    have hp : p.pieces = (p.pieces.headD [] :: kept) ++ mid := by
      rw [List.cons_append, ← hbody]
      exact pieces_eq_of_anchor ha
    refine isParent_of_pieces hp (by simp) hmid (.inr ?_) fun e => hk (List.cons.inj e).2
    intro k hlk
    obtain ⟨x, xs, rfl⟩ := List.exists_cons_of_ne_nil hk
    rw [List.getLast?_cons_cons] at hlk
    exact (eq_of_dropLastStep hd).2 k hlk

theorem IsParent.isAbsolute_eq {q p : Path} (h : IsParent q p) : q.isAbsolute = p.isAbsolute := by
  by_cases hq : q.text = ""
  · rw [h.not_isAbsolute hq, isAbsolute, hq]
    rfl
  · obtain ⟨cs, hcs⟩ := h.text_prefix
    have hne : q.text.toList ≠ [] := fun e => hq (String.toList_eq_nil_iff.mp e)
    obtain ⟨x, xs, hx⟩ := List.exists_cons_of_ne_nil hne
    rw [isAbsolute, isAbsolute, ← hcs, hx, List.cons_append, List.head?_cons, List.head?_cons]

/-- A parent can be followed if the path can, unless nothing is left of it. -/
theorem IsParent.usable {q p : Path} (h : IsParent q p) (hp : Workspace.usable p = .ok ()) (hq : q.text ≠ "") :
    Workspace.usable q = .ok () := by
  obtain ⟨cs, hcs⟩ := h.text_prefix
  have htext : p.text = q.text ++ String.ofList cs := by rw [← String.toList_inj, ← hcs]; simp
  unfold Workspace.usable at hp ⊢
  split at hp
  · cases hp
  · next hnul =>
    split at hp
    · cases hp
    · split at hp
      · cases hp
      · next hlen =>
        rw [htext, String.utf8ByteSize_append] at hlen
        rw [if_neg, if_neg hq, if_neg (by omega)]
        intro e
        refine hnul ?_
        rw [htext, String.toList_append, List.any_append, e]
        rfl

end Path
end Stencil
