import Mathlib.Data.List.Pairwise
import Stencil.Proofs.Production.Drafts
import Stencil.Proofs.Workspace.LastSegment

/-!
# Files at plain names

A plain name leads down by one step wherever it stands, so that a path of plain names leads where the names say. Files
at such paths are in each other's way only if the names of one begin those of another.

- **`join_ofNames`**: a path of names joined to a directory of names.
- **`target_ofNames`**, **`mem_approach_ofNames`**: where a path of names leads, and what it is approached by.
- **`writesAll_of_layout`**: files that are not in each other's way can be written into an empty directory.
- **`laidOut_of_layout`**: then there is nothing but them and the directories on the way to them.
-/

namespace Stencil

/-- A name of a file or directory that can stand anywhere in a path. -/
@[mk_iff]
structure PlainName (name : String) : Prop where
  ne_empty : name ≠ ""
  no_slash : '/' ∉ name.toList
  no_nul : Char.ofNat 0 ∉ name.toList
  ne_dot : name ≠ "."
  ne_dots : name ≠ ".."
  short : name.utf8ByteSize ≤ Workspace.longestName

instance (name : String) : Decidable (PlainName name) := decidable_of_iff' _ (plainName_iff name)

/-- What is appended to a plain name makes another, unless that gets too long. -/
theorem PlainName.append {name suffix : String} (h : PlainName name) (hslash : '/' ∉ suffix.toList)
    (hnul : Char.ofNat 0 ∉ suffix.toList) (hlen : 2 < suffix.length)
    (hshort : name.utf8ByteSize + suffix.utf8ByteSize ≤ Workspace.longestName) : PlainName (name ++ suffix) := by
  have hlong : 2 < (name ++ suffix).length := by
    rw [String.length_append]
    omega
  refine ⟨?_, ?_, ?_, ?_, ?_, by rwa [String.utf8ByteSize_append]⟩
  · rintro e
    rw [e] at hlong
    exact absurd hlong (by decide)
  · rw [String.toList_append, List.mem_append]
    exact not_or.mpr ⟨h.no_slash, hslash⟩
  · rw [String.toList_append, List.mem_append]
    exact not_or.mpr ⟨h.no_nul, hnul⟩
  · rintro e
    rw [e] at hlong
    exact absurd hlong (by decide)
  · rintro e
    rw [e] at hlong
    exact absurd hlong (by decide)

/-! ## Paths of names -/

namespace Path

/-- The names with a slash between them. -/
def ofNames (names : List String) : Path := ⟨"/".intercalate names⟩

variable {names more : List String}

theorem toList_ofNames : ∀ names : List String, (ofNames names).text.toList = unsplit (names.map String.toList)
  | [] => rfl
  | [_] => rfl
  | n :: m :: ns => by
    have ih := toList_ofNames (m :: ns)
    simp only [ofNames, String.intercalate_cons_cons, String.toList_append, List.append_assoc] at ih ⊢
    rw [ih]
    rfl

theorem mem_unsplit {c : Char} : ∀ {ps : List (List Char)}, c ∈ unsplit ps → c = '/' ∨ ∃ piece ∈ ps, c ∈ piece
  | [], h => absurd h List.not_mem_nil
  | [p], h => .inr ⟨p, List.mem_cons_self, h⟩
  | p :: q :: ps, h => by
    rcases List.mem_append.mp h with h | h
    · exact .inr ⟨p, List.mem_cons_self, h⟩
    · rcases List.mem_cons.mp h with rfl | h
      · exact .inl rfl
      · rcases mem_unsplit h with hslash | ⟨piece, hpiece, hc⟩
        · exact .inl hslash
        · exact .inr ⟨piece, List.mem_cons_of_mem p hpiece, hc⟩

theorem pieces_ofNames (hne : names ≠ []) (h : ∀ n ∈ names, PlainName n) :
    (ofNames names).pieces = names.map String.toList := by
  rw [pieces, toList_ofNames, split_unsplit (by simpa using hne)]
  intro piece hpiece
  obtain ⟨n, hn, rfl⟩ := List.mem_map.mp hpiece
  exact (h n hn).no_slash

theorem names_ofNames (hne : names ≠ []) (h : ∀ n ∈ names, PlainName n) : Workspace.names (ofNames names) = names := by
  have hfilter : (names.map String.toList).filter (· ≠ []) = names.map String.toList := by
    rw [List.filter_eq_self]
    intro piece hpiece
    obtain ⟨n, hn, rfl⟩ := List.mem_map.mp hpiece
    exact decide_eq_true fun e => (h n hn).ne_empty (String.toList_eq_nil_iff.mp e)
  have hback : String.ofList ∘ String.toList = id := funext fun _ => String.ofList_toList
  rw [Workspace.names, pieces_ofNames hne h, hfilter, List.map_map, hback, List.map_id]

theorem isAbsolute_ofNames (hne : names ≠ []) (h : ∀ n ∈ names, PlainName n) : (ofNames names).isAbsolute = false := by
  rw [Bool.eq_false_iff]
  intro habs
  obtain ⟨xs, -, hxs⟩ := pieces_of_isAbsolute habs
  rw [pieces_ofNames hne h] at hxs
  obtain ⟨n, ns, rfl⟩ := List.exists_cons_of_ne_nil hne
  exact (h n List.mem_cons_self).ne_empty (String.toList_eq_nil_iff.mp (List.cons.inj hxs).1)

theorem text_ofNames_append : ∀ {names : List String}, names ≠ [] → more ≠ [] →
    (ofNames (names ++ more)).text = (ofNames names).text ++ "/" ++ (ofNames more).text
  | [], h, _ => absurd rfl h
  | [n], _, h' => by
    obtain ⟨m, ms, rfl⟩ := List.exists_cons_of_ne_nil h'
    exact String.intercalate_cons_cons
  | n :: m :: ns, _, h' => by
    have ih : (ofNames (m :: (ns ++ more))).text = (ofNames (m :: ns)).text ++ "/" ++ (ofNames more).text :=
      text_ofNames_append (List.cons_ne_nil m ns) h'
    simp only [ofNames, List.cons_append, String.intercalate_cons_cons, String.append_assoc] at ih ⊢
    rw [ih]

/-- The last segment of names is that of the last of them. -/
theorem lastSegment_ofNames (names : List String) (last : String) :
    (ofNames (names ++ [last])).lastSegment = (Path.mk last).lastSegment := by
  by_cases hne : names = []
  · rw [hne]
    rfl
  · have htext : ofNames (names ++ [last]) = ⟨(ofNames names).text ++ "/" ++ last⟩ :=
      congrArg Path.mk (text_ofNames_append hne (List.cons_ne_nil last []))
    rw [htext, lastSegment_behind_slash]

theorem text_ofNames_ne_empty (hne : names ≠ []) (h : ∀ n ∈ names, PlainName n) :
    (ofNames names).text ≠ "" ∧ (ofNames names).endsInSlash = false := by
  obtain ⟨init, last, rfl⟩ := (List.eq_nil_or_concat' names).resolve_left hne
  have hplain := h last (by simp)
  have hlast : (ofNames (init ++ [last])).lastSegment ≠ "" := by
    rw [lastSegment_ofNames, lastSegment_of_no_slash hplain.no_slash]
    exact hplain.ne_empty
  have hnot := not_or.mp (mt lastSegment_eq_empty_iff.mpr hlast)
  exact ⟨hnot.1, Bool.eq_false_iff.mpr hnot.2⟩

/-- A path of plain names is not longer than the longest names would make it. -/
theorem utf8ByteSize_ofNames_le : ∀ {names : List String}, (∀ n ∈ names, PlainName n) →
    (ofNames names).text.utf8ByteSize ≤ names.length * (Workspace.longestName + 1)
  | [], _ => Nat.zero_le _
  | [n], h => by
    have hn := (h n List.mem_cons_self).short
    rw [List.length_singleton, Nat.one_mul]
    exact Nat.le_succ_of_le hn
  | n :: m :: ns, h => by
    have ih := utf8ByteSize_ofNames_le fun k hk => h k (List.mem_cons_of_mem n hk)
    have hn := (h n List.mem_cons_self).short
    have hslash : "/".utf8ByteSize = 1 := rfl
    have htext : (ofNames (n :: m :: ns)).text = n ++ "/" ++ (ofNames (m :: ns)).text := String.intercalate_cons_cons
    rw [htext, String.utf8ByteSize_append, String.utf8ByteSize_append, hslash, List.length_cons, Nat.succ_mul]
    omega

/-- **Names behind names.** -/
theorem join_ofNames (hne : names ≠ []) (hne' : more ≠ []) (h : ∀ n ∈ names, PlainName n)
    (h' : ∀ n ∈ more, PlainName n) : (ofNames names).join (ofNames more) = ofNames (names ++ more) := by
  obtain ⟨htext, hslash⟩ := text_ofNames_ne_empty hne h
  have hjoin : (ofNames names).join (ofNames more) = ⟨(ofNames names).text ++ "/" ++ (ofNames more).text⟩ := by
    simp [join, isAbsolute_ofNames hne' h', htext, hslash]
  rw [hjoin, ← text_ofNames_append hne hne']

end Path

/-! ## Where names lead -/

namespace Workspace

variable {w : Workspace} {names : List String} {l : Location}

/-- The location that names lead down to. -/
def place (w : Workspace) (names : List String) : Location := names.reverse ++ w.here

theorem place_inj {more : List String} : w.place names = w.place more ↔ names = more := by
  rw [place, place, List.append_left_inj, List.reverse_inj]

theorem next_plain {name : String} (h : PlainName name) (l : Location) : next l name = name :: l := by
  rw [next, if_neg h.ne_dot, if_neg h.ne_dots]

theorem follow_plain : ∀ {names : List String} (l : Location), (∀ n ∈ names, PlainName n) →
    follow l names = names.reverse ++ l
  | [], _, _ => rfl
  | n :: ns, l, h => by
    have ih := follow_plain (n :: l) fun m hm => h m (List.mem_cons_of_mem n hm)
    rw [follow, next_plain (h n List.mem_cons_self), ih, List.reverse_cons, List.append_assoc, List.singleton_append]

theorem mem_trail_plain {m : Location} : ∀ {names : List String} {l : Location}, (∀ n ∈ names, PlainName n) →
    (m ∈ trail l names ↔ ∃ init, init <+: names ∧ m = init.reverse ++ l)
  | [], l, _ => by simp [trail]
  | n :: ns, l, h => by
    have ih := mem_trail_plain (m := m) (l := n :: l) fun m hm => h m (List.mem_cons_of_mem n hm)
    rw [trail, next_plain (h n List.mem_cons_self), List.mem_cons, ih]
    constructor
    · rintro (rfl | ⟨init, hinit, rfl⟩)
      · exact ⟨[], List.nil_prefix, rfl⟩
      · exact ⟨n :: init, List.cons_prefix_cons.mpr ⟨rfl, hinit⟩, by simp⟩
    · rintro ⟨init, hinit, rfl⟩
      cases init with
      | nil => exact .inl rfl
      | cons n' init =>
        obtain ⟨rfl, htail⟩ := List.cons_prefix_cons.mp hinit
        exact .inr ⟨init, htail, by simp⟩

section Names

variable (hne : names ≠ []) (h : ∀ n ∈ names, PlainName n)
include hne h

theorem origin_ofNames : w.origin (.ofNames names) = w.here := by
  rw [origin, Path.isAbsolute_ofNames hne h]
  rfl

/-- **Where a path of names leads.** -/
theorem target_ofNames : w.target (.ofNames names) = w.place names := by
  rw [target, origin_ofNames hne h, Path.names_ofNames hne h, follow_plain _ h]
  rfl

/-- **What a path of names is approached by**: the places of its first names. -/
theorem mem_approach_ofNames :
    l ∈ w.approach (.ofNames names) ↔ ∃ init, init <+: names ∧ init ≠ names ∧ l = w.place init := by
  have hdrop : ∀ n ∈ names.dropLast, PlainName n := fun n hn => h n (List.dropLast_subset _ hn)
  have hinit : ∀ init, init <+: names.dropLast ↔ init <+: names ∧ init ≠ names := by
    intro init
    have hconcat := List.dropLast_append_getLast hne
    constructor
    · intro hbegins
      refine ⟨hbegins.trans (List.dropLast_prefix _), ?_⟩
      rintro rfl
      have hlen := hbegins.length_le
      have hpos := List.length_pos_iff.mpr hne
      rw [List.length_dropLast] at hlen
      omega
    · rintro ⟨hbegins, hproper⟩
      rw [← hconcat] at hbegins
      rcases List.prefix_concat_iff.mp hbegins with e | hbegins
      · exact absurd (e.trans hconcat) hproper
      · exact hbegins
  rw [approach, origin_ofNames hne h, Path.names_ofNames hne h, mem_trail_plain hdrop]
  simp only [hinit, and_assoc]
  rfl

theorem usable_ofNames (hlong : (Path.ofNames names).text.utf8ByteSize ≤ longestPath) :
    usable (.ofNames names) = .ok () := by
  have hnul : ((Path.ofNames names).text.toList.any (·.toNat == 0)) = false := by
    rw [List.any_eq_false]
    intro c hc
    rw [Path.toList_ofNames] at hc
    rcases Path.mem_unsplit hc with rfl | ⟨piece, hpiece, hc⟩
    · decide
    · obtain ⟨n, hn, rfl⟩ := List.mem_map.mp hpiece
      rw [beq_iff_eq]
      intro hzero
      apply (h n hn).no_nul
      rwa [← hzero, Char.ofNat_toNat]
  rw [usable, hnul, if_neg (by simp), if_neg (Path.text_ofNames_ne_empty hne h).1, if_neg (Nat.not_lt.mpr hlong)]

theorem writable_ofNames (hlong : (Path.ofNames names).text.utf8ByteSize ≤ longestPath) :
    Writable (.ofNames names) where
  usable_ok := usable_ofNames hne h hlong
  short := by
    rw [Path.names_ofNames hne h]
    exact fun n hn => (h n hn).short
  last_name := by
    rw [Path.names_ofNames hne h]
    have hlast := h _ (List.getLast_mem hne)
    exact ⟨_, List.getLast?_eq_some_getLast hne, hlast.ne_dot, hlast.ne_dots⟩
  not_endsInSlash := (Path.text_ofNames_ne_empty hne h).2

end Names

/-! ## Layouts -/

/-- Files to write: the names that lead to each, and its text. None is where another needs a directory. -/
structure Layout (files : List (List String × String)) : Prop where
  ne_nil : ∀ f ∈ files, f.1 ≠ []
  plain : ∀ f ∈ files, ∀ n ∈ f.1, PlainName n
  not_long : ∀ f ∈ files, (Path.ofNames f.1).text.utf8ByteSize ≤ longestPath
  apart : files.Pairwise fun f g => ¬ f.1 <+: g.1 ∧ ¬ g.1 <+: f.1

/-- There is nothing in the directory to start from. -/
def EmptyHere (w : Workspace) : Prop := ∀ names, names ≠ [] → w.tree.node? (w.place names) = none

theorem emptyHere_fresh (name : String) : (fresh name).EmptyHere := by
  intro names hne
  obtain ⟨init, last, rfl⟩ := (List.eq_nil_or_concat' names).resolve_left hne
  have hplace : (fresh name).place (init ++ [last]) = last :: (init.reverse ++ [name]) := by simp [place, fresh]
  have hput : last :: (init.reverse ++ [name]) ≠ [name] := by simp
  rw [hplace, fresh, Tree.node?_put, if_neg hput]
  exact (Table.get?_insert _ _ _ _).trans (if_neg (List.cons_ne_nil _ _))

/-- The files are there, with the directories on the way to them, and nothing else is different. -/
structure LaidOut (w w' : Workspace) (files : List (List String × String)) : Prop where
  here_eq : w'.here = w.here
  file : ∀ f ∈ files, w'.tree.node? (w.place f.1) = some (.file f.2.toUTF8)
  directory : ∀ f ∈ files, ∀ names, names <+: f.1 → names ≠ f.1 → w'.tree.node? (w.place names) = some .directory
  elsewhere : ∀ l, (∀ f ∈ files, ∀ names, names <+: f.1 → l ≠ w.place names) → w'.tree.node? l = w.tree.node? l

/-- The draft of a file at names. -/
def atNames (f : List String × String) : Draft := ⟨.ofNames f.1, f.2⟩

section Layout

variable {files : List (List String × String)} {f g : List String × String} (h : Layout files)
include h

/-- Of two files the names of neither begin those of the other. -/
theorem Layout.eq_of_prefix (hf : f ∈ files) (hg : g ∈ files) (hbegins : f.1 <+: g.1) : f = g := by
  by_contra hne
  have hsymm : Std.Symm fun f g : List String × String => ¬ f.1 <+: g.1 ∧ ¬ g.1 <+: f.1 := ⟨fun _ _ h => h.symm⟩
  exact (h.apart.forall hf hg hne).1 hbegins

theorem target_atNames (hf : f ∈ files) : w.target (atNames f).path = w.place f.1 :=
  target_ofNames (h.ne_nil f hf) (h.plain f hf)

theorem mem_approach_atNames (hf : f ∈ files) :
    l ∈ w.approach (atNames f).path ↔ ∃ names, names <+: f.1 ∧ names ≠ f.1 ∧ l = w.place names :=
  mem_approach_ofNames (h.ne_nil f hf) (h.plain f hf)

/-- **Room for a layout**: in an empty directory all the files can be written. -/
theorem writesAll_of_layout (hempty : w.EmptyHere) : w.WritesAll (files.map atNames) := by
  have hapart : ∀ f ∈ files, ∀ g ∈ files, w.target (atNames f).path ∉ w.approach (atNames g).path := by
    intro f hf g hg hmem
    rw [target_atNames h hf, mem_approach_atNames h hg] at hmem
    obtain ⟨names, hbegins, hproper, hplace⟩ := hmem
    obtain rfl := place_inj.mp hplace
    exact hproper (congrArg Prod.fst (h.eq_of_prefix hf hg hbegins))
  refine writesAll_iff.mpr ⟨List.forall_mem_map.mpr fun f hf => ?_, List.forall_mem_map.mpr fun f hf =>
    List.forall_mem_map.mpr fun g hg => hapart f hf g hg⟩
  refine ⟨writable_ofNames (h.ne_nil f hf) (h.plain f hf) (h.not_long f hf), fun l hl => ?_, ?_, hapart f hf f hf⟩
  · obtain ⟨names, -, -, rfl⟩ := (mem_approach_atNames h hf).mp hl
    -- of all that the file is approached by, only the directory to start from is there
    by_cases hnames : names = []
    · rw [hnames]
      exact .inr w.here_directory
    · exact .inl (hempty names hnames)
  · rw [target_atNames h hf, hempty f.1 (h.ne_nil f hf)]
    exact nofun

/-- **What a layout leaves.** -/
theorem laidOut_of_layout (hempty : w.EmptyHere) : LaidOut w (w.writeAll (files.map atNames)) files := by
  have hwrites := writesAll_of_layout h hempty
  refine ⟨here_writeAll hwrites, fun f hf => ?_, fun f hf names hbegins hproper => ?_, fun l hl => ?_⟩
  · have hmem := List.mem_map_of_mem (f := atNames) hf
    rw [← target_atNames h hf, node?_writeAll hwrites]
    cases hlast : w.lastFor (files.map atNames) (w.target (atNames f).path) with
    | none => exact absurd hlast (lastFor_ne_none hmem)
    | some d =>
      obtain ⟨hd, htarget⟩ := lastFor_eq_some hlast
      obtain ⟨g, hg, rfl⟩ := List.mem_map.mp hd
      -- the last draft for this place is that of the file: no other file has the same names
      rw [target_atNames h hg, target_atNames h hf, place_inj] at htarget
      obtain rfl := h.eq_of_prefix hg hf (htarget ▸ List.prefix_refl _)
      rfl
  · exact node?_approach hwrites (List.mem_map_of_mem hf)
      ((mem_approach_atNames h hf).mpr ⟨names, hbegins, hproper, rfl⟩)
  · rw [node?_writeAll hwrites]
    have hlast : w.lastFor (files.map atNames) l = none := by
      cases hlast : w.lastFor (files.map atNames) l with
      | none => rfl
      | some d =>
        obtain ⟨hd, rfl⟩ := lastFor_eq_some hlast
        obtain ⟨f, hf, rfl⟩ := List.mem_map.mp hd
        exact absurd (target_atNames h hf) (hl f hf f.1 (List.prefix_refl _))
    have happroach : ¬ ∃ d ∈ files.map atNames, l ∈ w.approach d.path := by
      rintro ⟨d, hd, hmem⟩
      obtain ⟨f, hf, rfl⟩ := List.mem_map.mp hd
      obtain ⟨names, hbegins, -, hplace⟩ := (mem_approach_atNames h hf).mp hmem
      exact hl f hf names hbegins hplace
    rw [hlast]
    exact if_neg happroach

end Layout

end Workspace

end Stencil
