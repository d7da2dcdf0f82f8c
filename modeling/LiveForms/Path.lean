/-!
# Live forms: paths

A path is a list of names between slashes, and a slash in front of it starts at the
root. An empty name and the name `.` lead nowhere, and `..` leads one name back.

Main definitions:

* `Path.directory`: the directory that holds a path, as it is written.
* `Path.trail`: the places on the way to a path, the outermost first.
-/

namespace LiveForms
namespace Path

/-- The names that lead nowhere. -/
def isIdle (name : String) : Bool :=
  name = "" || name = "."

/-- A list of names without the idle ones at its end. -/
def trimEnd (names : List String) : List String :=
  (names.reverse.dropWhile isIdle).reverse

/--
The directory that holds a path: what is written before its last name. It is the
current directory if nothing is written there, and also for the root.
-/
def directory (path : String) : String :=
  match path.splitOn "/" with
  | [] => "."
  | first :: names =>
      match trimEnd names with
      | [] => "."
      | names =>
          match first, trimEnd names.dropLast with
          | "", [] => "/"
          | first, outer => "/".intercalate (first :: outer)

/-- The names that lead to a place, last first, after one more name. -/
def follow (rooted : Bool) (names : List String) (name : String) : List String :=
  if isIdle name then
    names
  else if name = ".." then
    match names with
    | [] => if rooted then [] else [".."]
    | last :: before => if last = ".." then ".." :: last :: before else before
  else
    name :: names

/-- The path of the place that names lead to, last first. -/
def place (rooted : Bool) (names : List String) : String :=
  (if rooted then "/" else "") ++ "/".intercalate names.reverse

/-- The places that are reached from `names` by one more name after the other. -/
def trailFrom (rooted : Bool) (names : List String) : List String → List String
  | [] => []
  | name :: rest =>
      let reached := follow rooted names name
      place rooted reached :: trailFrom rooted reached rest

/-- The places on the way to a path, the outermost first and its own the last. -/
def trail (path : String) : List String :=
  trailFrom (path.toList.head? = some '/') [] (path.splitOn "/")

end Path
end LiveForms
