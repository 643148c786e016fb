/-!
# Paths

Main definitions:

- `Text.normalPath`: a path without empty and idle parts.
-/

namespace TwinStore.Text

/-- The root with which a path begins: one slash, or two if there are exactly two. -/
def pathRoot (s : String) : String :=
  match s.toList.takeWhile (· = '/') with
  | [] => ""
  | ['/', '/'] => "//"
  | _ => "/"

/-- A path with single slashes, without parts that stay in place and without a slash at the end; the
empty path is the place itself. -/
def normalPath (s : String) : String :=
  let parts := (s.splitOn "/").filter fun part => part != "" && part != "."
  match pathRoot s ++ "/".intercalate parts with
  | "" => "."
  | path => path

end TwinStore.Text
