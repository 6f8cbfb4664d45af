-- What the command is asked to do: to annotate the registrations of a program, or to list them. Options
-- may stand anywhere behind the word for the action, each at most once.
namespace RouteTypes.Command

/-! ## Requests -/

/-- What is to be done with the program. -/
inductive Action where
  /-- Writes the annotated program to a file or, without one, to the output. -/
  | annotate (output manifest : Option String)
  /-- Writes a list of the registrations to the output. -/
  | list
deriving DecidableEq, Repr

structure Request where
  action : Action
  file : String
  /-- The file that sets the names. -/
  config : Option String
  /-- Whether diagnostics are written as JSON. -/
  json : Bool
deriving DecidableEq, Repr

/-! ## Words -/

/-- The word that asks to annotate. -/
def annotateWord : String := "rewrite"

/-- The word that asks for a list. -/
def listWord : String := "check"

/-- The options that take a value, by their long names. -/
def valued (action : Option String) : List String :=
  (if action = some annotateWord then ["--output", "--manifest"] else [])
    ++ (if action.isSome then ["--config"] else []) ++ ["--log-level", "--log-format"]

/-- The options without a value, by their long names. -/
def flags (action : Option String) : List String :=
  (if action.isSome then ["--json", "--no-color"] else []) ++ ["--quiet", "--verbose"]

/-- The long name of an option. -/
def longName : String → String
  | "-o" => "--output"
  | "-q" => "--quiet"
  | "-v" => "--verbose"
  | name => name

/-- An option with a value in the same word: `--name=value`, `-nvalue` or `-n=value`. -/
def joined? (word : String) : Option (String × String) :=
  match word.toList with
  | '-' :: '-' :: rest =>
    let name := rest.takeWhile (· ≠ '=')
    if name.length < rest.length then
      some (String.ofList ('-' :: '-' :: name), String.ofList (rest.drop (name.length + 1)))
    else none
  | '-' :: name :: '=' :: value => some (longName (String.ofList ['-', name]), String.ofList value)
  | '-' :: name :: c :: value => some (longName (String.ofList ['-', name]), String.ofList (c :: value))
  | _ => none

/-- What has been read of the arguments. -/
structure Words where
  /-- The name of the action and the file. -/
  names : List String
  options : List (String × String)
deriving Repr

namespace Words

def action (words : Words) : Option String := words.names.head?

def option? (words : Words) (name : String) : Option String := words.options.lookup name

/-- Sets an option. How much is said about the work may be asked for several times. -/
def set (words : Words) (name value : String) : Option Words :=
  if (words.option? name).isSome && name != "--verbose" then none
  else some { words with options := words.options ++ [(name, value)] }

/-- Adds a word that is no option. -/
def add (words : Words) (name : String) : Option Words :=
  match words.names with
  | [] =>
    if name = annotateWord ∨ name = listWord then some { words with names := [name] } else none
  | [action] => some { words with names := [action, name] }
  | _ => none

/-- Reads arguments. -/
def read : Words → List String → Option Words
  | words, [] => some words
  | words, word :: rest =>
    let name := longName word
    if word = "--" then rest.foldlM add words
    else if (flags words.action).contains name then do read (← words.set name "") rest
    else if (valued words.action).contains name then
      match rest with
      | value :: rest =>
        if value.startsWith "-" && value != "-" then none else do read (← words.set name value) rest
      | [] => none
    else match joined? word with
      | some (name, value) =>
        if (valued words.action).contains name then do read (← words.set name value) rest else none
      | none => if word.startsWith "-" && word != "-" then none else do read (← words.add word) rest

/-- What the words ask for. -/
def request? (words : Words) : Option Request :=
  match words.names with
  | [word, file] =>
    let action : Action :=
      if word = annotateWord then .annotate (words.option? "--output") (words.option? "--manifest")
      else .list
    some ⟨action, file, words.option? "--config", (words.option? "--json").isSome⟩
  | _ => none

end Words

/-- What the arguments ask for. -/
def Request.ofArguments? (arguments : List String) : Option Request := do
  (← Words.read ⟨[], []⟩ arguments).request?

/-- How the command is used. -/
def usage : String :=
  "usage: " ++ annotateWord ++ " FILE [--output FILE] [--manifest FILE] [--config FILE] [--json]\n"
    ++ "       " ++ listWord ++ " FILE [--config FILE] [--json]"

end RouteTypes.Command
