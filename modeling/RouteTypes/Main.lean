-- The command line: the files are read and written here, all else is a function of them.
import RouteTypes.Command.Run

namespace RouteTypes.Command

/-- The text of a file, or why it cannot be read. -/
def readFile (path : String) : IO (Except String String) := do
  try return .ok (← IO.FS.readFile path) catch error => return .error (toString error)

/-- All files that a request may lead to. -/
def filesFor (request : Request) : IO Files := do
  let paths := request.file :: Path.beside request.file configFile :: request.config.toList
  let known ← paths.mapM fun path => return (path, ← readFile path)
  let read (path : String) : Except String String := (known.lookup path).getD (.error "no file")
  return ⟨fun path => (read path).isOk, read⟩

/-- Writes what the work has written. -/
def deliver (json : Bool) (written : Written) : IO Unit := do
  IO.print written.output
  written.files.forM fun (path, text) => IO.FS.writeFile path text
  written.messages.forM fun message => IO.eprintln (message.text json)

end RouteTypes.Command

open RouteTypes Command in
def main (arguments : List String) : IO UInt32 := do
  match Request.ofArguments? arguments with
  | none =>
    IO.eprintln usage
    return 2
  | some request =>
    let (written, isDone) := run (← filesFor request) request
    deliver request.json written
    return if isDone then 0 else 1
