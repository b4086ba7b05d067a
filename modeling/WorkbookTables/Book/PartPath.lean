/-!
# Paths of parts

A part points at another by a target, which is resolved against the directory of the part it stands
in. A target that begins with a slash starts at the root of the package. Of the segments between
the slashes, an empty one and a single dot mean nothing and two dots drop the segment before them;
at the root there is nothing to drop, so no target leads out of the package.

A directory is given with its slash at the end and is simply written before the target.

## Main definitions

* `PartPath.segments` — the pieces between slashes
* `PartPath.resolve` — the path that a target names
* `PartPath.directory`, `PartPath.fileName` — the two halves of a path
-/

namespace WorkbookTables.PartPath

/-- The pieces of a text between its slashes, at least one. -/
def segments : List Char → List (List Char)
  | [] => [[]]
  | c :: rest =>
    if c = '/' then [] :: segments rest
    else match segments rest with
      | [] => [[c]]
      | first :: others => (c :: first) :: others

/-- The segments kept after one more, the last one first. -/
def visit (kept : List (List Char)) (segment : List Char) : List (List Char) :=
  if segment = [] ∨ segment = ['.'] then kept
  else if segment = ['.', '.'] then kept.tail
  else segment :: kept

/-- The segments that a text leads to, the last one first. -/
def follow (path : List Char) : List (List Char) :=
  (segments path).foldl visit []

/-- Pieces with slashes between them. -/
def joined : List (List Char) → List Char
  | [] => []
  | [only] => only
  | first :: rest => first ++ '/' :: joined rest

/-- The path of the part that `target` names, seen from `directory`. -/
def resolve (directory target : String) : String :=
  let path := match target.toList with
    | '/' :: rest => rest
    | relative => directory.toList ++ relative
  String.ofList (joined (follow path).reverse)

/-- The part of a path up to its last slash, with the slash. -/
def directory (path : String) : String :=
  String.ofList (path.toList.reverse.dropWhile (· != '/')).reverse

/-- The part of a path after its last slash. -/
def fileName (path : String) : String :=
  String.ofList (path.toList.reverse.takeWhile (· != '/')).reverse

/-- The path of a file in the same directory. -/
def sibling (path file : String) : String :=
  directory path ++ file

example : resolve "xl/" "../xl/worksheets/./sheet1.xml" = "xl/worksheets/sheet1.xml" := by
  decide +kernel

example : resolve "xl/" "/../a" = "a" ∧ resolve "a/b" "c" = "a/bc" := by decide +kernel

example : directory "xl/workbook.xml" = "xl/" ∧ fileName "xl/workbook.xml" = "workbook.xml" := by
  decide +kernel

end WorkbookTables.PartPath
