import DiagramScene.Text.Split

/-!
# Paths

A path is a text whose parts are separated by slashes.  Empty parts and single dots do not count.
The name at the end of a path has an extension if a dot stands in it behind its first character.
-/

namespace DiagramScene.Cli.Path

/-- The parts of a path, with those that do not count. -/
def parts (path : String) : List (List Char) := Text.splitOn '/' path.toList

/-- The part that stands for the directory itself. -/
def same : List Char := ['.']

/-- The part does not count. -/
def isFiller (part : List Char) : Bool := part.isEmpty || part == same

/-- The part that leads to the directory above. -/
def above : List Char := ['.', '.']

/-- A name without its extension: what stands before its last dot, unless that is nothing. -/
def stem (name : List Char) : List Char :=
  match (name.reverse.dropWhile (· ≠ '.')).drop 1 with
  | [] => name
  | before => before.reverse

/-- The path with another extension.  A path without a name stays as it is.  So does one that ends
with a name before which only a dot is left when its extension is taken off: with the dot of the
extension that is no name but the way to the directory above. -/
def withExtension (path extension : String) : String :=
  match (parts path).reverse.dropWhile isFiller with
  | [] => path
  | name :: before =>
    if name = above then path
    else
      let endsWithName := (parts path).getLast? == some name
      let renamed :=
        if stem name = same ∧ endsWithName then above
        else stem name ++ '.' :: extension.toList
      String.ofList (Text.join ['/'] (renamed :: before).reverse)

end DiagramScene.Cli.Path
