-- What the command does: it reads a program and the names that are set beside it, checks the program,
-- and annotates or lists its registrations. The work is a function of the files; what it writes is part
-- of its result.
import RouteTypes.Command.Arguments
import RouteTypes.Command.Path
import RouteTypes.Route.Annotate
import RouteTypes.Text.Lines

namespace RouteTypes.Command

open Text

/-! ## Files and results -/

/-- The files that can be read. -/
structure Files where
  isFile : String → Bool
  /-- The text of a file, or why it cannot be read. -/
  read : String → Except String String

/-- Why the work ends before it is done. -/
inductive Stop where
  | notAFile (path : String)
  | unreadable (path reason : String)
  /-- The names are not set as they should be. -/
  | badConfig
  /-- The program has a misfit. -/
  | misfit
  /-- The registrations cannot be annotated or listed. -/
  | failure
  /-- A question about the types of the program leads to itself without end. -/
  | endless
deriving DecidableEq, Repr

def Stop.message : Stop → String
  | .notAFile path => s!"'{path}' is not a file"
  | .unreadable path reason => s!"Failed to read '{path}': {reason}"
  | .badConfig => "Failed to parse routemeta.toml"
  | .misfit => "Parsing failed due to errors above."
  | .failure => "Rewrite failed due to errors above."
  | .endless => "The types of the program lead to themselves without end."

/-- What is told besides the result. -/
inductive Message where
  | diagnostic (diagnostic : Diagnostic)
  | line (text : String)

/-- What has been written. -/
structure Written where
  /-- The standard output. -/
  output : String
  messages : List Message
  /-- Paths and texts of files, in the order in which they are written. -/
  files : List (String × String)

/-- Work that writes. -/
abbrev Work := ExceptT Stop (StateM Written)

def tell (message : Message) : Work Unit :=
  modify fun written => { written with messages := written.messages ++ [message] }

def print (text : String) : Work Unit :=
  modify fun written => { written with output := written.output ++ text }

def writeFile (path text : String) : Work Unit :=
  modify fun written => { written with files := written.files ++ [(path, text)] }

/-! ## Reading -/

/-- A program that has been read and checked, with the names to use. -/
structure Loaded where
  source : String
  file : String
  root : Node
  checked : Checked
  config : Config

/-- The text of a file. -/
def textOf (files : Files) (path : String) : Work String :=
  match files.read path with
  | .ok text => pure text
  | .error reason => throw (.unreadable path reason)

/-- The name of the file beside a program that sets the names. -/
def configFile : String := "routemeta.toml"

/-- The names that a file sets. -/
def configOf (files : Files) (path : String) : Work Config := do
  match Config.ofToml? (← textOf files path) with
  | some config => return config
  | none => throw .badConfig

/-- The names to use: those of the file that is asked for, or else of the one beside the program, if
there is one. -/
def loadConfig (files : Files) (request : Request) : Work Config :=
  let beside := Path.beside request.file configFile
  match request.config with
  | some path => configOf files path
  | none => if files.isFile beside then configOf files beside else pure .standard

/-- The diagnostic of a misfit. It marks one byte at least. -/
def misfitDiagnostic (file : String) (misfit : Misfit) : Diagnostic where
  code := "P0001"
  severity := .error
  message := "Parse error: " ++ misfit.message
  file := file
  marks := [⟨⟨misfit.span.start, max misfit.span.stop (misfit.span.start + 1)⟩, misfit.message⟩]

/-- Reads and checks a program. A misfit ends the work; problems with types are told. -/
def load (files : Files) (request : Request) : Work Loaded := do
  if !files.isFile request.file then throw (.notAFile request.file)
  let source ← textOf files request.file
  let config ← loadConfig files request
  let program := Program.ofSource source
  match program.misfit with
  | some misfit =>
    tell (.diagnostic (misfitDiagnostic request.file misfit))
    throw .misfit
  | none =>
    match Checked.ofRoot? program.root with
    | none => throw .endless
    | some checked =>
      for problem in checked.problems do
        tell (.diagnostic (Problem.diagnostic request.file source.utf8ByteSize problem))
      return ⟨source, request.file, program.root, checked, config⟩

/-! ## Actions -/

/-- The result, or else the failure is told and ends the work. -/
def orFail {α : Type} (program : Loaded) : Except Failure α → Work α
  | .ok result => pure result
  | .error failure => do
    tell (.diagnostic (failure.diagnostic program.file program.source.utf8ByteSize))
    throw .failure

/-- Annotates the registrations. The manifest goes to its file, or else beside an output file. -/
def annotate (program : Loaded) (output manifest : Option String) : Work Unit := do
  let annotated ←
    orFail program (Route.annotate program.config (Route.callables program.checked) program.root)
  let text := (annotated.visit.resultAt program.root).text
  match output with
  | some path => writeFile path text
  | none => print text
  match manifest.or (output.map (Path.withExtension · "types.json")) with
  | some path => writeFile path (annotated.registry.manifest ++ "\n")
  | none => pure ()
  match output with
  | some path =>
    tell (.line s!"  Rewrote: {path} ({annotated.registrations} call sites, {annotated.registry.size} schemas)")
  | none => pure ()

/-- The line for a registration in a list. -/
def listed (program : Loaded) (lines : Lines) (call : Node) : String :=
  let (line, column) := lines.position call.span.start
  let callee := (call.expression?.map (·.text)).getD ""
  s!"  {program.file}:{line}:{column} {callee}\n"

/-- Lists the registrations. -/
def list (program : Loaded) : Work Unit := do
  let anchor ← orFail program (Route.anchor program.config program.checked program.root)
  let calls := Route.registrations program.checked anchor program.root
  print s!"anchor: {program.config.type}.{(program.checked.symbol anchor).name}\n"
  print s!"call sites: {calls.length}\n"
  let lines := Lines.ofSource program.source
  for call in calls do
    print (listed program lines call)

/-- Does what is asked for. -/
def work (files : Files) (request : Request) : Work Unit := do
  let program ← load files request
  match request.action with
  | .annotate output manifest => annotate program output manifest
  | .list => list program

/-! ## The end -/

/-- What is told when the work ends early. -/
def Stop.told (json : Bool) (stop : Stop) : Message :=
  if json then .diagnostic ⟨"C0001", .error, stop.message, "", []⟩
  else .line ("error: " ++ stop.message)

/-- Does what is asked for. The answer says what is written and whether the work has been done. -/
def run (files : Files) (request : Request) : Written × Bool :=
  match (work files request).run.run ⟨"", [], []⟩ with
  | (.ok _, written) => (written, true)
  | (.error stop, written) =>
    ({ written with messages := written.messages ++ [stop.told request.json] }, false)

/-- A place in a diagnostic that is not written as JSON. -/
def markText (diagnostic : Diagnostic) (mark : Mark) : String :=
  s!"\n  {diagnostic.file}:{mark.span.start}..{mark.span.stop}: {mark.label}"

/-- The text of a message. -/
def Message.text (json : Bool) : Message → String
  | .line text => text
  | .diagnostic d =>
    if json then d.toJson.compact
    else s!"{d.severity.name} {d.code}: {d.message}" ++ String.join (d.marks.map (markText d))

end RouteTypes.Command
