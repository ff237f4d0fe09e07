import Stencil.Text.Quoted

/-!
# Paths

A path is kept as it is written. Slashes divide it into pieces; empty pieces and single dots mean nothing except in
front, where an empty piece makes the path absolute and a dot is kept. What remains are the components.

- **`join_of_absolute`**: an absolute path joined to a directory replaces it.
- **`length_lt_of_parent?`**: the parent is written shorter than the path.
-/

namespace Stencil

/-- A path as it is written. -/
structure Path where
  text : String
  deriving DecidableEq

namespace Path

/-- The text between slashes; there is one piece more than there are slashes. -/
def split : List Char → List (List Char)
  | [] => [[]]
  | c :: cs =>
    if c = '/' then [] :: split cs
    else
      match split cs with
      | [] => [[c]]
      | p :: ps => (c :: p) :: ps

/-- The pieces with a slash between them. -/
def unsplit : List (List Char) → List Char
  | [] => []
  | [p] => p
  | p :: q :: ps => p ++ '/' :: unsplit (q :: ps)

theorem split_ne_nil : ∀ cs : List Char, split cs ≠ []
  | [] => by simp [split]
  | c :: cs => by
    unfold split
    split
    · simp
    · split <;> simp

@[simp] theorem unsplit_split : ∀ cs : List Char, unsplit (split cs) = cs
  | [] => rfl
  | c :: cs => by
    have ih := unsplit_split cs
    unfold split
    split
    · next h =>
      subst h
      cases hs : split cs with
      | nil => exact absurd hs (split_ne_nil cs)
      | cons p ps => rw [hs] at ih; simp [unsplit, ih]
    · cases hs : split cs with
      | nil => exact absurd hs (split_ne_nil cs)
      | cons p ps =>
        rw [hs] at ih
        cases ps with
        | nil => simpa [unsplit] using ih
        | cons q ps => simpa [unsplit] using ih

/-- The pieces of the path. -/
def pieces (p : Path) : List (List Char) := split p.text.toList

/-- The path starts at the root. -/
def isAbsolute (p : Path) : Bool := p.text.toList.head? == some '/'

/-- The path ends in a slash. -/
def endsInSlash (p : Path) : Bool := p.text.toList.getLast? == some '/'

/-- The second path as seen from the first. A slash is added where one is missing. -/
def join (base rel : Path) : Path :=
  if rel.isAbsolute then rel
  else if base.text = "" || base.endsInSlash then ⟨base.text ++ rel.text⟩
  else ⟨base.text ++ "/" ++ rel.text⟩

theorem join_of_absolute {base rel : Path} (h : rel.isAbsolute = true) : join base rel = rel := by simp [join, h]

/-! ## Components -/

/-- A step of a path. -/
inductive Component
  /-- The root, in front of an absolute path. -/
  | root
  /-- A dot in front of a relative path. -/
  | here
  /-- Two dots: up to the directory above. -/
  | up
  /-- Down to a name. -/
  | name (text : String)
  deriving DecidableEq

/-- A piece that is no step of its own: nothing, or a dot. -/
def isIdle (piece : List Char) : Bool := piece == [] || piece == ['.']

/-- The step that a piece other than the first stands for. -/
def Component.ofPiece (piece : List Char) : Option Component :=
  if isIdle piece then none else if piece = ['.', '.'] then some .up else some (.name (String.ofList piece))

/-- The path as it starts: at the root, at a dot that is kept, or plainly. -/
def anchor (p : Path) : Option Component :=
  match p.pieces with
  | [] :: _ :: _ => some .root
  | ['.'] :: _ => some .here
  | _ => none

/-- The pieces that follow the anchor. -/
def body (p : Path) : List (List Char) :=
  match p.anchor with
  | none => p.pieces
  | some _ => p.pieces.tail

/-- The steps of the path. -/
def components (p : Path) : List Component := p.anchor.toList ++ p.body.filterMap Component.ofPiece

/-- The last step, if it is a name. -/
def fileName? (p : Path) : Option String :=
  match p.components.getLast? with
  | some (.name text) => some text
  | _ => none

/-- The steps of the first path begin the steps of the second. -/
def isUnder (p dir : Path) : Bool := dir.components.isPrefixOf p.components

/-- The pieces that remain once the last step and the idle pieces around it are gone; none if there is no step. -/
def dropLastStep (pieces : List (List Char)) : Option (List (List Char)) :=
  match pieces.reverse.dropWhile isIdle with
  | [] => none
  | _ :: before => some (before.dropWhile isIdle).reverse

/-- The path without its last step; what is left ends in a step or is the anchor alone. The root and the empty path
have no parent. -/
def parent? (p : Path) : Option Path :=
  match p.anchor, dropLastStep p.body with
  | none, none => none
  | none, some kept => some ⟨String.ofList (unsplit kept)⟩
  | some .here, none => some ⟨""⟩
  | some _, none => none
  | some .here, some [] => some ⟨"."⟩
  | some _, some [] => some ⟨"/"⟩
  | some _, some kept => some ⟨String.ofList (unsplit (p.pieces.headD [] :: kept))⟩

/-! ## The parent is shorter -/

/-- One more than the length of each piece, summed up. -/
def weight : List (List Char) → Nat
  | [] => 0
  | p :: ps => p.length + 1 + weight ps

theorem length_unsplit : ∀ ps : List (List Char), (unsplit ps).length = weight ps - 1
  | [] => rfl
  | [p] => by simp [unsplit, weight]
  | p :: q :: ps => by
    have ih := length_unsplit (q :: ps)
    simp only [unsplit, List.length_append, List.length_cons, ih]
    simp only [weight]
    omega

theorem weight_append : ∀ ps qs : List (List Char), weight (ps ++ qs) = weight ps + weight qs
  | [], _ => by simp [weight]
  | p :: ps, qs => by simp only [List.cons_append, weight, weight_append ps qs]; omega

theorem weight_reverse : ∀ ps : List (List Char), weight ps.reverse = weight ps
  | [] => rfl
  | p :: ps => by simp only [List.reverse_cons, weight_append, weight_reverse ps, weight]; omega

theorem weight_dropWhile_le (f : List Char → Bool) (ps : List (List Char)) : weight (ps.dropWhile f) ≤ weight ps := by
  conv => rhs; rw [← List.takeWhile_append_dropWhile (p := f) (l := ps)]
  rw [weight_append]
  omega

/-- What `dropLastStep` keeps lacks at least a step and a slash. -/
theorem weight_lt_of_dropLastStep {ps kept : List (List Char)} (h : dropLastStep ps = some kept) :
    weight kept + 2 ≤ weight ps := by
  unfold dropLastStep at h
  split at h
  · simp at h
  · next step before heq =>
    simp only [Option.some.injEq] at h
    subst h
    have hne : step ≠ [] := by
      rintro rfl
      have := List.head?_dropWhile_not isIdle ps.reverse
      simp [heq, isIdle] at this
    have hlen : 1 ≤ step.length := List.length_pos_iff.mpr hne
    have h₁ := weight_dropWhile_le isIdle ps.reverse
    have h₂ := weight_dropWhile_le isIdle before
    rw [heq, weight_reverse] at h₁
    rw [weight_reverse]
    simp only [weight] at h₁ h₂ ⊢
    omega

theorem length_text (p : Path) : p.text.length = weight p.pieces - 1 := by
  rw [← length_unsplit, pieces, unsplit_split, String.length_toList]

theorem pieces_eq_of_anchor {p : Path} {c : Component} (h : p.anchor = some c) :
    p.pieces = p.pieces.headD [] :: p.body := by
  have hb : p.body = p.pieces.tail := by simp [body, h]
  rw [hb]
  cases hp : p.pieces with
  | nil => exact absurd hp (split_ne_nil _)
  | cons q qs => rfl

/-- The parent is written with fewer characters than the path. -/
theorem length_lt_of_parent? {p q : Path} (h : p.parent? = some q) : q.text.length < p.text.length := by
  rw [length_text p]
  unfold parent? at h
  split at h
  · simp at h
  · next kept ha hd =>
    simp only [Option.some.injEq] at h
    subst h
    have hb : p.body = p.pieces := by simp [body, ha]
    have hw := weight_lt_of_dropLastStep hd
    rw [String.length_ofList, length_unsplit]
    rw [hb] at hw
    omega
  · next ha hd =>
    simp only [Option.some.injEq] at h
    subst h
    have hp : p.pieces.headD [] = ['.'] := by
      unfold anchor at ha
      split at ha <;> simp_all
    rw [pieces_eq_of_anchor ha, hp]
    simp only [weight, List.length_cons, List.length_nil, String.length_empty]
    omega
  · simp at h
  · next ha hd =>
    simp only [Option.some.injEq] at h
    subst h
    have hw := weight_lt_of_dropLastStep hd
    rw [pieces_eq_of_anchor ha]
    simp only [weight] at hw ⊢
    show 1 < _
    omega
  · next ha hd =>
    simp only [Option.some.injEq] at h
    subst h
    have hw := weight_lt_of_dropLastStep hd
    rw [pieces_eq_of_anchor ha]
    simp only [weight] at hw ⊢
    show 1 < _
    omega
  · next ha hd =>
    simp only [Option.some.injEq] at h
    subst h
    have hw := weight_lt_of_dropLastStep hd
    rw [String.length_ofList, length_unsplit]
    conv => rhs; rw [pieces_eq_of_anchor ha]
    simp only [weight] at hw ⊢
    omega

/-- The path between quotes, as messages show it. -/
def quoted (p : Path) : String := Text.quoted p.text

end Path
end Stencil
