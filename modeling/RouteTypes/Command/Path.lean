-- Paths of files, with slashes between their parts.
namespace RouteTypes.Path

/-- The directory of a path with the slash behind it, and the name of the file. -/
def split (path : String) : String × String :=
  let name := (path.toList.reverse.takeWhile (· ≠ '/')).reverse
  (String.ofList (path.toList.take (path.length - name.length)), String.ofList name)

/-- The path of another file in the same directory. -/
def beside (path name : String) : String := (split path).1 ++ name

/-- The name up to its last point. A point at the start belongs to the name. -/
def stem (name : String) : String :=
  let upToPoint := ((name.toList.reverse.dropWhile (· ≠ '.')).drop 1).reverse
  if upToPoint.isEmpty then name else String.ofList upToPoint

/-- The path with another extension. A path that ends with no name of a file stays as it is. -/
def withExtension (path extension : String) : String :=
  let (directory, name) := split path
  if name = "" ∨ name = "." ∨ name = ".." then path
  else directory ++ stem name ++ "." ++ extension

end RouteTypes.Path
