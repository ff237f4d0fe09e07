import Stencil.Template.Parse

/-!
# Kits

A kit is an ordered list of file patterns. A file pattern makes one file: a template for its path and a template for its
text. Both texts are read when a pattern is added, so a kit holds well-formed templates only; whether the names in them
have values is asked when the kit is used.
-/

namespace Stencil

/-- The template texts of one file: for its path and for what it holds. -/
structure FileSource where
  path : String
  text : String
  deriving DecidableEq

/-- The templates of one file: for its path and for what it holds. -/
structure FilePattern where
  path : Template
  text : Template
  deriving DecidableEq

/-- Reads both texts, the path's first. -/
def FileSource.parse (s : FileSource) : Except Malformed FilePattern :=
  match Template.parse s.path with
  | .error m => .error m
  | .ok path =>
    match Template.parse s.text with
    | .error m => .error m
    | .ok text => .ok ⟨path, text⟩

/-- The patterns of the files to make, in order. -/
structure Kit where
  patterns : List FilePattern
  deriving DecidableEq

namespace Kit

/-- The kit that makes nothing. -/
def empty : Kit := ⟨[]⟩

/-- The number of files that the kit makes. -/
def size (k : Kit) : Nat := k.patterns.length

/-- Adds a pattern at the end, if both of its texts are templates. -/
def add (k : Kit) (s : FileSource) : Except Malformed Kit :=
  match s.parse with
  | .error m => .error m
  | .ok p => .ok ⟨k.patterns ++ [p]⟩

/-- Adds patterns one after another, up to the first text that is no template. -/
def addAll (k : Kit) : List FileSource → Except Malformed Kit
  | [] => .ok k
  | s :: rest =>
    match k.add s with
    | .error m => .error m
    | .ok k' => k'.addAll rest

/-- The kit of the given texts, or what is wrong with the first that is no template. -/
def ofSources (sources : List FileSource) : Except Malformed Kit := empty.addAll sources

end Kit
end Stencil
