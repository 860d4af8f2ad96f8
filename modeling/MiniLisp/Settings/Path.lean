/-
# Paths

A path is kept in a normal form: separators that are repeated or at the end, and components
that stand for the place itself, are left out.
-/

namespace MiniLisp

/-- A path in normal form. -/
structure Path where
  /-- The separators at the front: none, one, or two. -/
  slashes : Nat
  /-- The components. -/
  components : List String
deriving DecidableEq, Repr

namespace Path

/-- The number of separators that are kept of those at the front: two stay two, and any
other number counts as one. -/
def keptSlashes : Nat → Nat
  | 0 => 0
  | 2 => 2
  | _ => 1

/-- The text of some characters, cut at each separator. -/
def split : List Char → List (List Char)
  | [] => [[]]
  | c :: rest =>
    match split rest with
    | [] => []
    | first :: others => if c = '/' then [] :: first :: others else (c :: first) :: others

/-- The path that a text spells. -/
def ofString (s : String) : Path :=
  let chars := s.toList
  ⟨keptSlashes (chars.takeWhile (· = '/')).length,
    ((split (chars.dropWhile (· = '/'))).filter fun part => part ≠ [] ∧ part ≠ ['.']).map
      String.ofList⟩

/-- The text of a path; a path without separators and components is the place itself. -/
def toString (path : Path) : String :=
  if path.slashes = 0 ∧ path.components = [] then "."
  else String.ofList (List.replicate path.slashes '/') ++ "/".intercalate path.components

/-- The home directory as it is put in place of a tilde: without separators at the end. -/
def trimmedHome (home : String) : String :=
  let trimmed := (home.toList.reverse.dropWhile (· = '/')).reverse
  if trimmed = [] then "/" else String.ofList trimmed

/-- The path with the home directory in place of a tilde that is its first component. -/
def expandHome (home : Option String) (path : Path) : Path :=
  match home, path.slashes, path.components with
  | some home, 0, "~" :: rest =>
    let base := ofString (trimmedHome home)
    { base with components := base.components ++ rest }
  | _, _, _ => path

/-- The name of the file that a path leads to, if the file is in the working directory
itself. -/
def fileHere? (path : Path) : Option String :=
  match path.slashes, path.components with
  | 0, [name] => if name = ".." then none else some name
  | _, _ => none

end Path

end MiniLisp
