import AssemblyAtlas.Text.Split

/-!
# Paths

A path is a text with slashes between its segments. Empty segments and single dots say nothing,
except at the very start, where the one stands for the root and the other for the current
directory.

* `Path.components` is what a path means, and `Path.Same` compares paths by it;
* `Path.steps` are the components with all single dots, as a file system follows them;
* `Path.parent?`, `Path.fileName?` and `Path.join` work on the text and leave the rest of it alone.
-/

namespace AssemblyAtlas
namespace Path

open Text

/-- A step of a path. -/
inductive Component where
  | root
  | current
  | parent
  | name (text : String)
deriving DecidableEq

/-- The place of a kind of component in the order of paths. -/
def Component.rank : Component → Nat
  | root => 0
  | current => 1
  | parent => 2
  | name _ => 3

/-- The text of a component. -/
def Component.text : Component → String
  | root => "/"
  | current => "."
  | parent => ".."
  | name text => text

/-- The texts between the slashes. -/
def segments (path : String) : List String :=
  (pieces '/' path.toList).map String.ofList

/-- The segment says nothing, unless it is the first. -/
def isIdle (segment : String) : Bool :=
  segment == "" || segment == "."

/-- The component of a segment that says something. -/
def ofSegment (segment : String) : Component :=
  if segment = ".." then
    .parent
  else
    .name segment

/-- The components of a path. -/
def components (path : String) : List Component :=
  match segments path with
  | [] => []
  | first :: rest =>
      let start :=
        if first = "" then
          if rest.isEmpty then [] else [.root]
        else if first = "." then
          [.current]
        else
          [ofSegment first]
      start ++ (rest.filter (!isIdle ·)).map ofSegment

/-- The two paths have the same components. -/
def Same (left right : String) : Prop :=
  components left = components right

instance (left right : String) : Decidable (Same left right) :=
  inferInstanceAs (Decidable (_ = _))

/-- The numbers and texts by which paths are ordered, component by component. -/
def orderKey (path : String) : List (Nat × String) :=
  (components path).map fun component => (component.rank, component.text)

/-- The first order key comes before the second. -/
def keyBefore : List (Nat × String) → List (Nat × String) → Bool
  | [], [] => false
  | [], _ :: _ => true
  | _ :: _, [] => false
  | (leftRank, leftText) :: left, (rightRank, rightText) :: right =>
      if leftRank = rightRank ∧ leftText = rightText then
        keyBefore left right
      else
        leftRank < rightRank || leftRank = rightRank && decide (leftText < rightText)

/-- The first path comes before the second in the order of components. -/
def isBefore (left right : String) : Bool :=
  keyBefore (orderKey left) (orderKey right)

/-- Drops segments that say nothing from the end, which comes first here. -/
def dropIdle : List String → List String
  | [] => []
  | [first] => [first]
  | segment :: rest => if isIdle segment then dropIdle rest else segment :: rest

/-- The text of segments, of which the last comes first here. -/
def ofReversed (reversed : List String) : String :=
  if reversed = [""] then
    "/"
  else
    String.intercalate "/" reversed.reverse

/-- The path without its last component, if it has one that is not the root. -/
def parent? (path : String) : Option String :=
  match dropIdle (segments path).reverse with
  | [] => none
  | [first] => if first = "" then none else some ""
  | _ :: rest => some (ofReversed (dropIdle rest))

/-- The last component, if it is a name. -/
def fileName? (path : String) : Option String :=
  match dropIdle (segments path).reverse with
  | [] => none
  | segment :: _ => if isIdle segment ∨ segment = ".." then none else some segment

/-- The path is counted from the root. -/
def isAbsolute (path : String) : Bool :=
  path.toList.head? = some '/'

/-- The second path as seen from the first. -/
def join (base path : String) : String :=
  if isAbsolute path ∨ base = "" then
    path
  else if base.toList.getLast? = some '/' then
    base ++ path
  else
    base ++ "/" ++ path

/-- The last segment of a path, whatever it says. -/
def lastSegment (path : String) : String :=
  (segments path).getLastD ""

/-- The path ends in a slash. -/
def endsInSlash (path : String) : Bool :=
  path.toList.getLast? = some '/'

/-- The steps by which a file system follows a path; every single dot is one. -/
def steps (path : String) : List Component :=
  let step (segment : String) : Component :=
    if segment = "." then .current else ofSegment segment
  (if isAbsolute path then [.root] else []) ++ ((segments path).filter (· ≠ "")).map step

end Path
end AssemblyAtlas
