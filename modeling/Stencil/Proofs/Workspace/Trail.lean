import Stencil.Workspace

/-!
# Trails

Without links, where a path leads does not depend on what stands in the tree: names are followed from location to
location (`follow`), and the locations passed make up the trail. The tree only decides whether the trail can be walked.

- **`walk_of_directories`**, **`of_walk`**: a walk arrives at a directory exactly when its trail is made of directories,
  and then it arrives where the names lead.
- **`walk_of_clear`**: a trail without files is made of directories, or the walk reports that something is missing.
- **`find_eq`**: a path that leads anywhere leads to its target.
- **`isDirectory_iff`**: which paths lead to a directory.
-/

namespace Stencil
namespace Workspace

/-! ## Following names -/

/-- The location that a name leads to, whatever stands in the tree. -/
def next (l : Location) (name : String) : Location :=
  if name = "." then l else if name = ".." then l.tail else name :: l

/-- The location that names lead to. -/
def follow : Location → List String → Location
  | l, [] => l
  | l, name :: rest => follow (next l name) rest

/-- The locations on the way, the first and the last included. -/
def trail : Location → List String → List Location
  | l, [] => [l]
  | l, name :: rest => l :: trail (next l name) rest

/-- Names that directories can hold. -/
def Short (names : List String) : Prop := ∀ name ∈ names, name.utf8ByteSize ≤ longestName

/-- Directories stand at all the locations. -/
def Directories (t : Tree) (ls : List Location) : Prop := ∀ l ∈ ls, t.node? l = some .directory

/-- No files stand at the locations. -/
def Clear (t : Tree) (ls : List Location) : Prop := ∀ l ∈ ls, t.node? l = none ∨ t.node? l = some .directory

theorem Short.dropLast {names : List String} (h : Short names) : Short names.dropLast :=
  fun n hn => h n (List.dropLast_subset _ hn)

theorem Short.not_lt {names : List String} {name : String} (h : Short names) (hname : names.getLast? = some name) :
    ¬ longestName < name.utf8ByteSize :=
  Nat.not_lt.mpr (h name (List.mem_of_getLast? hname))

theorem Short.concat {init : List String} {name : String} (h : Short init)
    (hname : ¬ longestName < name.utf8ByteSize) : Short (init ++ [name]) := by
  intro n hn
  rcases List.mem_append.mp hn with hn | hn
  · exact h n hn
  · rw [List.mem_singleton.mp hn]
    exact Nat.le_of_not_lt hname

theorem Directories.mono {t : Tree} {ls ks : List Location} (h : Directories t ls) (hsub : ks ⊆ ls) :
    Directories t ks := fun l hl => h l (hsub hl)

theorem Clear.mono {t : Tree} {ls ks : List Location} (h : Clear t ls) (hsub : ks ⊆ ls) : Clear t ks :=
  fun l hl => h l (hsub hl)

theorem mem_trail_start (l : Location) (names : List String) : l ∈ trail l names := by
  cases names <;> exact List.mem_cons_self

theorem follow_mem_trail : ∀ (names : List String) (l : Location), follow l names ∈ trail l names
  | [], _ => List.mem_cons_self
  | name :: rest, l => List.mem_cons_of_mem _ (follow_mem_trail rest (next l name))

theorem follow_append : ∀ (names more : List String) (l : Location),
    follow l (names ++ more) = follow (follow l names) more
  | [], _, _ => rfl
  | name :: rest, more, l => follow_append rest more (next l name)

theorem mem_trail_append {m : Location} : ∀ (names more : List String) (l : Location),
    m ∈ trail l (names ++ more) ↔ m ∈ trail l names ∨ m ∈ trail (follow l names) more
  | [], more, l => by
    refine ⟨.inr, fun h => h.elim (fun h => ?_) id⟩
    rw [List.mem_singleton.mp h]
    exact mem_trail_start _ _
  | name :: rest, more, l => by
    rw [List.cons_append, trail, trail, List.mem_cons, List.mem_cons, mem_trail_append rest more, or_assoc]
    rfl

/-- Dots lead nowhere. -/
theorem mem_trail_dots {m : Location} : ∀ {dots : List String} {l : Location}, (∀ n ∈ dots, n = ".") →
    (m ∈ trail l dots ↔ m = l)
  | [], _, _ => List.mem_singleton
  | d :: dots, l, h => by
    have hd : d = "." := h d List.mem_cons_self
    have hnext : next l d = l := by rw [next, if_pos hd]
    rw [trail, hnext, List.mem_cons, mem_trail_dots fun n hn => h n (List.mem_cons_of_mem d hn), or_self]

/-- Above a directory there are only directories. -/
theorem node?_tail {t : Tree} {l : Location} (h : t.node? l = some .directory) :
    t.node? l.tail = some .directory := by
  cases l with
  | nil => exact h
  | cons name l =>
    have hne : t.nodes.get? (name :: l) ≠ none := fun e => by cases h.symm.trans e
    exact t.parent_directory hne

/-! ## Walking -/

section Walk

variable {t : Tree}

theorem step_directory {l : Location} (name : String) (h : t.node? l = some .directory) :
    step t l name = if longestName < name.utf8ByteSize then .error .nameTooLong else .ok (next l name) := by
  by_cases h₁ : name = "."
  · subst h₁
    have hlen : ¬ longestName < ".".utf8ByteSize := by decide
    simp [step, h, next, hlen]
  by_cases h₂ : name = ".."
  · subst h₂
    have hlen : ¬ longestName < "..".utf8ByteSize := by decide
    simp [step, h, next, hlen]
  · simp [step, h, next, h₁, h₂]

/-- A step is made from a directory, by a name that is short enough. -/
theorem of_step {l l' : Location} {name : String} (h : step t l name = .ok l') :
    t.node? l = some .directory ∧ name.utf8ByteSize ≤ longestName ∧ l' = next l name := by
  have hl : t.node? l = some .directory := by
    unfold step at h
    split at h
    · assumption
    · cases h
  rw [step_directory name hl] at h
  split at h
  · cases h
  · next hlen => exact ⟨hl, Nat.le_of_not_lt hlen, (Except.ok.inj h).symm⟩

/-- Where the trail of the first names is made of directories, a walk goes on from where they lead. -/
theorem walk_append (more : List String) : ∀ {names : List String} {l : Location}, Directories t (trail l names) →
    Short names → walk t l (names ++ more) = walk t (follow l names) more
  | [], _, _, _ => rfl
  | name :: rest, l, h, hs => by
    have hl : t.node? l = some .directory := h l List.mem_cons_self
    have hname := hs name List.mem_cons_self
    have hnext : t.node? (next l name) = some .directory := h _ (List.mem_cons_of_mem _ (mem_trail_start _ _))
    have ih := walk_append more (fun m hm => h m (List.mem_cons_of_mem _ hm))
      (fun n hn => hs n (List.mem_cons_of_mem _ hn))
    rw [List.cons_append, walk, step_directory name hl, if_neg (Nat.not_lt.mpr hname)]
    simp only [hnext, reduceCtorEq, if_false, ih, follow]

theorem walk_of_directories {names : List String} {l : Location} (h : Directories t (trail l names))
    (hs : Short names) : walk t l names = .ok (follow l names) := by
  have hwalk := walk_append [] h hs
  rw [List.append_nil] at hwalk
  exact hwalk

/-- A walk that arrives anywhere arrives where the names lead. -/
theorem walk_eq : ∀ {names : List String} {l l' : Location}, walk t l names = .ok l' → l' = follow l names
  | [], _, _, h => (Except.ok.inj h).symm
  | name :: rest, l, l', h => by
    rw [walk] at h
    split at h
    · cases h
    · next l₁ hstep =>
      obtain ⟨-, -, rfl⟩ := of_step hstep
      split at h
      · cases h
      · rw [follow]
        exact walk_eq h

/-- A walk that arrives at a directory went through directories only. -/
theorem of_walk : ∀ {names : List String} {l l' : Location}, walk t l names = .ok l' → t.node? l' = some .directory →
    l' = follow l names ∧ Directories t (trail l names) ∧ Short names
  | [], l, l', h, hl' => by
    obtain rfl := Except.ok.inj h
    refine ⟨rfl, fun m hm => ?_, fun n hn => absurd hn List.not_mem_nil⟩
    rw [List.mem_singleton.mp hm]
    exact hl'
  | name :: rest, l, l', h, hl' => by
    rw [walk] at h
    split at h
    · cases h
    · next l₁ hstep =>
      obtain ⟨hl, hname, rfl⟩ := of_step hstep
      split at h
      · cases h
      · obtain ⟨rfl, hrest, hs⟩ := of_walk h hl'
        refine ⟨rfl, fun m hm => ?_, fun n hn => ?_⟩
        · rcases List.mem_cons.mp hm with rfl | hm
          · exact hl
          · exact hrest m hm
        · rcases List.mem_cons.mp hn with rfl | hn
          · exact hname
          · exact hs n hn

/-- On a trail without files nothing can go wrong but that a directory is missing. -/
theorem walk_of_clear : ∀ {names : List String} {l : Location}, Clear t (trail l names) → Short names →
    t.node? l = some .directory → Directories t (trail l names) ∨ walk t l names = .error .notFound
  | [], l, _, _, hl => .inl fun m hm => by rw [List.mem_singleton.mp hm]; exact hl
  | name :: rest, l, h, hs, hl => by
    have hname := hs name List.mem_cons_self
    rw [walk, step_directory name hl, if_neg (Nat.not_lt.mpr hname)]
    rcases h _ (List.mem_cons_of_mem _ (mem_trail_start _ _)) with hnone | hdir
    · exact .inr (by simp [hnone])
    · rcases walk_of_clear (fun m hm => h m (List.mem_cons_of_mem _ hm))
        (fun n hn => hs n (List.mem_cons_of_mem _ hn)) hdir with hall | herr
      · refine .inl fun m hm => ?_
        rcases List.mem_cons.mp hm with rfl | hm
        · exact hl
        · exact hall m hm
      · exact .inr (by simp [hdir, herr])

end Walk

/-! ## Where paths lead -/

variable (w : Workspace) (p : Path)

/-- The locations on the way to a path and the one that it leads to. -/
def way : List Location := trail (w.origin p) (names p)

/-- The location that a path leads to. -/
def target : Location := follow (w.origin p) (names p)

/-- The locations that have to be directories before something can be put at a path. -/
def approach : List Location := trail (w.origin p) (names p).dropLast

variable {w p}

theorem node?_origin : w.tree.node? (w.origin p) = some .directory := by
  unfold origin
  split
  · exact Tree.node?_nil _
  · exact w.here_directory

/-- Where no names are to be followed, there is a directory. -/
theorem directories_origin : Directories w.tree (trail (w.origin p) []) := by
  intro l hl
  rw [List.mem_singleton.mp hl]
  exact node?_origin

theorem target_mem_way : w.target p ∈ w.way p := follow_mem_trail _ _

theorem names_eq_concat {last : String} (h : (names p).getLast? = some last) :
    names p = (names p).dropLast ++ [last] := by
  obtain ⟨init, hinit⟩ := List.getLast?_eq_some_iff.mp h
  rw [hinit, List.dropLast_concat]

theorem mem_way {l : Location} : l ∈ w.way p ↔ l ∈ w.approach p ∨ l = w.target p := by
  cases h : (names p).getLast? with
  | none =>
    have hnil : names p = [] := List.getLast?_eq_none_iff.mp h
    simp [way, approach, target, hnil, trail, follow]
  | some last =>
    have hnames := names_eq_concat h
    rw [way, approach, target, hnames, List.dropLast_concat, mem_trail_append, follow_append]
    constructor
    · rintro (hl | hl)
      · exact .inl hl
      · rcases List.mem_cons.mp hl with rfl | hl
        · exact .inl (follow_mem_trail _ _)
        · exact .inr (List.mem_singleton.mp hl)
    · rintro (hl | rfl)
      · exact .inl hl
      · exact .inr (List.mem_cons_of_mem _ List.mem_cons_self)

theorem approach_subset_way : w.approach p ⊆ w.way p := fun _ hl => mem_way.mpr (.inl hl)

theorem directories_way (ha : Directories w.tree (w.approach p)) (ht : w.tree.node? (w.target p) = some .directory) :
    Directories w.tree (w.way p) := by
  intro l hl
  rcases mem_way.mp hl with hl | rfl
  · exact ha l hl
  · exact ht

/-! Where paths lead depends on the workspace only by where relative paths start. -/

section Here

variable {w' : Workspace} (h : w'.here = w.here) (p : Path)
include h

theorem origin_eq_of_here : w'.origin p = w.origin p := by rw [origin, origin, h]

theorem way_eq_of_here : w'.way p = w.way p := by rw [way, way, origin_eq_of_here h]

theorem approach_eq_of_here : w'.approach p = w.approach p := by rw [approach, approach, origin_eq_of_here h]

theorem target_eq_of_here : w'.target p = w.target p := by rw [target, target, origin_eq_of_here h]

end Here

theorem of_find {l : Location} {n : Tree.Node} (h : w.find p = .ok (l, n)) :
    usable p = .ok () ∧ walk w.tree (w.origin p) (names p) = .ok l ∧ w.tree.node? l = some n := by
  unfold find at h
  split at h
  · cases h
  · next hu =>
    split at h
    · cases h
    · next l' hwalk =>
      split at h
      · cases h
      · next n' hn =>
        split at h
        · cases h
        · obtain ⟨rfl, rfl⟩ := Prod.mk.inj (Except.ok.inj h)
          exact ⟨hu, hwalk, hn⟩

/-- A path that leads anywhere leads to its target. -/
theorem find_eq {l : Location} {n : Tree.Node} (h : w.find p = .ok (l, n)) :
    l = w.target p ∧ w.tree.node? l = some n := by
  obtain ⟨-, hwalk, hn⟩ := of_find h
  exact ⟨walk_eq hwalk, hn⟩

theorem exists_find_of_isDirectory (h : w.isDirectory p = true) : ∃ l, w.find p = .ok (l, .directory) := by
  unfold isDirectory at h
  split at h
  · next l hfind => exact ⟨l, hfind⟩
  · cases h

/-- A path leads to a directory when it can be followed and its way is made of directories. -/
theorem isDirectory_iff :
    w.isDirectory p = true ↔ usable p = .ok () ∧ Short (names p) ∧ Directories w.tree (w.way p) := by
  constructor
  · intro h
    obtain ⟨l, hfind⟩ := exists_find_of_isDirectory h
    obtain ⟨hu, hwalk, hn⟩ := of_find hfind
    obtain ⟨-, hdirs, hs⟩ := of_walk hwalk hn
    exact ⟨hu, hs, hdirs⟩
  · rintro ⟨hu, hs, hdirs⟩
    have htarget : w.tree.node? (follow (w.origin p) (names p)) = some .directory := hdirs _ target_mem_way
    simp [isDirectory, find, hu, walk_of_directories hdirs hs, htarget]

theorem find_directory_iff {l : Location} :
    w.find p = .ok (l, .directory) ↔ w.isDirectory p = true ∧ l = w.target p := by
  constructor
  · intro h
    exact ⟨by rw [isDirectory, h], (find_eq h).1⟩
  · rintro ⟨h, rfl⟩
    obtain ⟨l', hfind⟩ := exists_find_of_isDirectory h
    rw [hfind, (find_eq hfind).1]

/-- Where directories stay, a path leads to a directory as before. -/
theorem isDirectory_mono {w' : Workspace} (hhere : w'.here = w.here)
    (hdir : ∀ l, w.tree.node? l = some .directory → w'.tree.node? l = some .directory) (h : w.isDirectory p = true) :
    w'.isDirectory p = true := by
  obtain ⟨hu, hs, hd⟩ := isDirectory_iff.mp h
  refine isDirectory_iff.mpr ⟨hu, hs, fun l hl => hdir l (hd l ?_)⟩
  rwa [way_eq_of_here hhere] at hl

end Workspace
end Stencil
