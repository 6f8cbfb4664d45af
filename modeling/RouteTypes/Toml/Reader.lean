-- Reading TOML. A document is a row of lines; each sets an entry, opens a table, or holds nothing but
-- blanks and a comment.
import RouteTypes.Toml.Scalar

namespace RouteTypes.Toml

/-! ## Keys -/

/-- One part of a key: a bare word, or a string on one line. -/
def readKeyPart (cs : List Char) : Option (String × List Char) :=
  let isBare (c : Char) : Bool := c.isAlphanum || c = '_' || c = '-'
  match cs with
  | [] => none
  | c :: rest =>
    if c = '"' ∨ c = '\x27' then do
      let (text, rest) ← readLine c (rest.length + 1) rest
      some (String.ofList text, rest)
    else if isBare c then some (String.ofList (cs.takeWhile isBare), cs.dropWhile isBare)
    else none

/-- A key of at most so many parts, with points between them and blanks around them. -/
def readKey : Nat → List Char → Option (List String × List Char)
  | 0, _ => none
  | most + 1, cs => do
    let (part, rest) ← readKeyPart (skipBlanks cs)
    match skipBlanks rest with
    | '.' :: rest => do
      let (parts, rest) ← readKey most rest
      some (part :: parts, rest)
    | rest => some ([part], rest)

/-- How many parts a key may have, and how deep values may be nested. -/
def limit : Nat := 79

/-! ## Values -/

mutual

/-- What is behind blanks, comments and line ends. Every comment has to end with its line. -/
def skipGap : List Char → Option (List Char)
  | [] => some []
  | '\r' :: '\n' :: rest => skipGap rest
  | c :: rest =>
    if isBlank c || c = '\n' then skipGap rest
    else if c = '#' then skipComment rest
    else some (c :: rest)

def skipComment : List Char → Option (List Char)
  | [] => none
  | '\r' :: '\n' :: rest => skipGap rest
  | c :: rest =>
    if c = '\n' then skipGap rest
    else if isText c then skipComment rest
    else none

end

mutual

/-- A value, with no more than so many brackets and braces in one another. Each part takes one of
`fuel`. -/
def readValue : Nat → Nat → List Char → Option (Toml × List Char)
  | 0, _, _ => none
  | fuel + 1, depth, cs =>
    match cs, depth with
    | '[' :: rest, depth + 1 => do
      let (items, rest) ← readItems fuel depth rest
      some (.array items, rest)
    | '{' :: rest, depth + 1 =>
      match skipBlanks rest with
      | '}' :: rest => some (.table .inline [], rest)
      | rest => do
        let (entries, rest) ← readEntries fuel depth rest []
        some (.table .inline entries, rest)
    | cs, _ => readScalar cs

/-- The items of an array, up to and with the closing bracket. There may be a comma behind the last. -/
def readItems : Nat → Nat → List Char → Option (List Toml × List Char)
  | 0, _, _ => none
  | fuel + 1, depth, cs => do
    match ← skipGap cs with
    | ']' :: rest => some ([], rest)
    | cs => do
      let (value, rest) ← readValue fuel depth cs
      match ← skipGap rest with
      | ']' :: rest => some ([value], rest)
      | ',' :: rest => do
        let (items, rest) ← readItems fuel depth rest
        some (value :: items, rest)
      | _ => none

/-- One entry or more behind those read already, up to and with the closing brace. -/
def readEntries : Nat → Nat → List Char → Entries → Option (Entries × List Char)
  | 0, _, _, _ => none
  | fuel + 1, depth, cs, entries => do
    let (key, rest) ← readKey limit cs
    let (value, rest) ← readValue fuel depth (skipBlanks (← expect '=' rest))
    let entries ← entries.insertAt value key
    match skipBlanks rest with
    | '}' :: rest => some (entries, rest)
    | ',' :: rest => readEntries fuel depth rest entries
    | _ => none

end

/-! ## Documents -/

/-- What has been read of a document: all entries, and the path of the table that is open. -/
structure Document where
  entries : Entries
  path : List String

/-- The rest behind the end of a line, with a comment before it or none. -/
def endLine (cs : List Char) : Option (List Char) :=
  match skipBlanks cs with
  | [] => some []
  | '#' :: rest =>
    match rest.dropWhile isText with
    | [] => some []
    | rest => newline? rest
  | rest => newline? rest

/-- A line that opens a table. -/
def readHeader (document : Document) (cs : List Char) : Option (Document × List Char) := do
  let (key, rest) ← readKey limit cs
  let last ← key.getLast?
  let entries ← document.entries.within (Entries.openTable last) key.dropLast
  some (⟨entries, key⟩, ← endLine (← expect ']' rest))

/-- A line that opens one more of the tables with that header. -/
def readItemHeader (document : Document) (cs : List Char) : Option (Document × List Char) := do
  let (key, rest) ← readKey limit cs
  let last ← key.getLast?
  let entries ← document.entries.within (Entries.addTable last) key.dropLast
  some (⟨entries, key⟩, ← endLine (← expect ']' (← expect ']' rest)))

/-- A line that sets an entry. -/
def readEntry (document : Document) (cs : List Char) : Option (Document × List Char) := do
  let (key, rest) ← readKey limit cs
  let rest := skipBlanks (← expect '=' rest)
  let (value, rest) ← readValue (2 * rest.length + 1) limit rest
  let entries ← document.entries.within (Entries.insertAt value key) document.path
  some ({ document with entries }, ← endLine rest)

/-- One line. -/
def readLineOf (document : Document) (cs : List Char) : Option (Document × List Char) :=
  match skipBlanks cs with
  | [] => some (document, [])
  | '[' :: '[' :: rest => readItemHeader document rest
  | '[' :: rest => readHeader document rest
  | c :: rest =>
    if c = '#' ∨ (newline? (c :: rest)).isSome then do
      some (document, ← endLine (c :: rest))
    else readEntry document (c :: rest)

/-- All lines; at most `fuel` of them. -/
def readLinesOf : Nat → Document → List Char → Option Document
  | 0, _, _ => none
  | fuel + 1, document, cs =>
    if cs.isEmpty then some document
    else do
      let (document, rest) ← readLineOf document cs
      readLinesOf fuel document rest

/-- The entries of the document that the text writes. -/
def parse? (text : String) : Option Entries :=
  let cs := match text.toList with
    | '\uFEFF' :: rest => rest
    | cs => cs
  (readLinesOf (cs.length + 1) ⟨[], []⟩ cs).map (·.entries)

end RouteTypes.Toml
